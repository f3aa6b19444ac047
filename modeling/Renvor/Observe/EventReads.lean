import Renvor.Observe.EventLines

/-! # Which events are read back

An entry of a span is read as the span it was written for, and a line as its event, exactly
where the event is plain (`Renvor.Observe.formatEvent_iff`).
-/

namespace Renvor.Observe

open Foundation (Json OrderedMap)

variable {floats : Floats} {rule : Redaction}

/-! ## Entries -/

/-- Only the field of the run is lifted out of the fields of a span. -/
theorem lift_other {state : OrderedMap String Json × Option String} {field : String × Json}
    (other : field.1 ≠ "run_id") : (lift state field).2 = state.2 := by
  unfold lift
  dsimp only
  split
  next => exact (other rfl).elim
  next => rfl

/-- The last text that is the run of a span is the one that is kept. -/
theorem lift_run (state : OrderedMap String Json × Option String) (value : Json) :
    (lift state ("run_id", value)).2 = (asText value).or state.2 := by
  cases value <;> rfl

/-- Lifting the run leaves all fields of the span where they are. -/
theorem lifted_fields (fields : List (String × Json)) (state : OrderedMap String Json × Option String) :
    (fields.foldl lift state).1 =
      fields.foldl (fun map entry => map.insert entry.1 entry.2) state.1 := by
  induction fields generalizing state with
  | nil => rfl
  | cons field rest ih => exact ih (lift state field)

/-- Without a field for the run the one known before stays. -/
theorem lifted_none {fields : List (String × Json)} (absent : ∀ value, ("run_id", value) ∉ fields)
    (state : OrderedMap String Json × Option String) : (fields.foldl lift state).2 = state.2 := by
  induction fields generalizing state with
  | nil => rfl
  | cons field rest ih =>
      rw [List.foldl_cons, ih fun value member => absent value (List.mem_cons_of_mem field member)]
      refine lift_other fun same => absent field.2 ?_
      rw [← same]
      exact List.mem_cons_self

/-- The field for the run, where a span has one, takes the place of the one known before. -/
theorem lifted_some {fields : List (String × Json)}
    (apart : fields.Pairwise fun before after => before.1 ≠ after.1) {value : Json}
    (member : ("run_id", value) ∈ fields) (state : OrderedMap String Json × Option String) :
    (fields.foldl lift state).2 = (asText value).or state.2 := by
  induction fields generalizing state with
  | nil => exact (List.not_mem_nil member).elim
  | cons field rest ih =>
      obtain ⟨first, apart⟩ := List.pairwise_cons.mp apart
      rw [List.foldl_cons]
      obtain same | later := List.mem_cons.mp member
      · rw [← same] at first ⊢
        rw [lifted_none (fun other held => first _ held rfl), lift_run]
      · rw [ih apart later, lift_other (first _ later)]

/-- What stands in a span's entry: its fields, and under `name` its name where no field has that
key. -/
theorem spanEntry_get? (span : Span floats) (runId : Option String) (key : String) :
    (spanEntry rule span runId).1.get? key = ((readFields rule span).get? key).or
      ((OrderedMap.empty.insert "name" (Json.string span.name)).get? key) := by
  rw [spanEntry, spanFields_stored, lifted_fields, OrderedMap.get?_foldl_insert,
    OrderedMap.ofEntries_entries]

/-- The run known after a span is the span's own, or the one known before it. -/
theorem spanEntry_run (span : Span floats) (runId : Option String) :
    (spanEntry rule span runId).2 =
      (((readFields rule span).get? "run_id").bind asText).or runId := by
  rw [spanEntry, spanFields_stored]
  cases held : (readFields rule span).get? "run_id" with
  | none => exact lifted_none (OrderedMap.get?_none.mp held) _
  | some value =>
      have apart : (readFields rule span).entries.Pairwise fun before after =>
          before.1 ≠ after.1 :=
        (List.pairwise_map.mp (readFields rule span).sorted).imp fun below => ne_of_lt below
      exact lifted_some apart (OrderedMap.get?_some.mp held) _

/-- A map is the list of its entries. -/
theorem entries_inj {first second : OrderedMap String Json} (same : first.entries = second.entries) :
    first = second := by
  cases first
  cases second
  cases same
  rfl

/-- An entry without its name is what was read, where no field is so named. -/
theorem spanEntry_erase {span : Span floats} (runId : Option String)
    (unnamed : (readFields rule span).get? "name" = none) :
    (spanEntry rule span runId).1.erase "name" = readFields rule span := by
  refine OrderedMap.ext_get? fun key => ?_
  by_cases same : key = "name"
  · rw [same, OrderedMap.get?_erase_self, unnamed]
  · rw [OrderedMap.get?_erase_of_ne same, spanEntry_get?, OrderedMap.get?_insert_of_ne same,
      OrderedMap.get?_empty, Option.or_none]

/-- An object that was written from a map is read as that map. -/
theorem asObject_object (map : OrderedMap String Json) : asObject (.object map.entries) = some map :=
  congrArg some (OrderedMap.ofEntries_entries map)

/-- A span is read from its entry: the name under its key, and the other fields beside it. -/
theorem spanOfJson_entry (entry : OrderedMap String Json) :
    Record.spanOfJson (.object entry.entries) =
      ((entry.get? "name").bind asText).map fun name => (name, (entry.erase "name").entries) := by
  rw [Record.spanOfJson, asObject_object]
  show ((entry.get? "name").bind asText).bind
    (fun name => some (name, (entry.erase "name").entries)) = _
  cases (entry.get? "name").bind asText <;> rfl

/-- **An entry is read as its span, exactly where the span is plain.** -/
theorem spanOfJson_iff {span : Span floats} {runId : Option String} :
    Record.spanOfJson (.object (spanEntry rule span runId).1.entries) =
      some (span.name, (span.shownFields rule).entries) ↔ span.Plain rule := by
  rw [spanOfJson_entry]
  constructor
  · intro read
    obtain ⟨name, _, same⟩ := Option.map_eq_some_iff.mp read
    have shows := entries_inj (congrArg Prod.snd same)
    have unnamed : (span.shownFields rule).get? "name" = none := by
      rw [← shows, OrderedMap.get?_erase_self]
    have reads := spanEntry_erase runId (readFields_none unnamed)
    exact plain_of_readFields (get?_shownFields_none.mp unnamed) (reads.symm.trans shows)
  · intro plain
    have reads := readFields_of_plain plain
    have unnamed : (readFields rule span).get? "name" = none := by
      rw [reads]
      exact get?_shownFields_none.mpr plain.unnamed
    rw [spanEntry_get?, unnamed, Option.none_or, OrderedMap.get?_insert_self,
      spanEntry_erase runId unnamed, reads]
    rfl

/-- A partial map on a list is defined where it is on the first item and on the others. -/
theorem mapM_cons_some {Item Other : Type} {change : Item → Option Other} {item : Item}
    {rest : List Item} {other : Other} {others : List Other} :
    (item :: rest).mapM change = some (other :: others) ↔
      change item = some other ∧ rest.mapM change = some others := by
  rw [List.mapM_cons]
  constructor
  · intro all
    obtain ⟨first, head, all⟩ := Option.bind_eq_some_iff.mp all
    obtain ⟨later, tail, same⟩ := Option.bind_eq_some_iff.mp all
    cases same
    exact ⟨head, tail⟩
  · rintro ⟨head, tail⟩
    rw [head, tail]
    rfl

/-- The entries of some spans, the run handed on from each to the next. -/
theorem spanEntries_cons (span : Span floats) (rest : List (Span floats)) (runId : Option String) :
    spanEntries rule (span :: rest) runId =
      (.object (spanEntry rule span runId).1.entries ::
          (spanEntries rule rest (spanEntry rule span runId).2).1,
        (spanEntries rule rest (spanEntry rule span runId).2).2) := rfl

/-- The spans are read as they were shown exactly where each of them is plain. -/
theorem spansOfJson_iff {spans : List (Span floats)} {runId : Option String} :
    (spanEntries rule spans runId).1.mapM Record.spanOfJson =
      some (spans.map fun span => (span.name, (span.shownFields rule).entries)) ↔
        ∀ span ∈ spans, span.Plain rule := by
  induction spans generalizing runId with
  | nil => exact iff_of_true rfl fun _ member => (List.not_mem_nil member).elim
  | cons span rest ih =>
      rw [spanEntries_cons, List.map_cons, mapM_cons_some, spanOfJson_iff, ih, List.forall_mem_cons]

/-- The run of plain spans is what the innermost of them names. -/
theorem spanEntries_run {spans : List (Span floats)} (plain : ∀ span ∈ spans, span.Plain rule)
    (runId : Option String) : (spanEntries rule spans runId).2 = (runOf rule spans).or runId := by
  induction spans generalizing runId with
  | nil => rfl
  | cons span rest ih =>
      obtain ⟨first, plain⟩ := List.forall_mem_cons.mp plain
      have runs : runOf rule (span :: rest) =
          (runOf rule rest).or (((span.shownFields rule).get? "run_id").bind asText) := by
        rw [runOf, List.reverse_cons, List.findSome?_append, List.findSome?_singleton, runOf]
      rw [spanEntries_cons]
      dsimp only
      rw [ih plain, spanEntry_run, readFields_of_plain first, runs, Option.or_assoc]

/-! ## Lines -/

/-- What is read from the object of an event, part by part. -/
theorem ofJson_object (timestamp : String) (event : Event floats) :
    Record.ofJson (.object (event.object rule timestamp).entries) =
      ((spanEntries rule event.spans none).1.mapM Record.spanOfJson).map fun spans =>
        ⟨timestamp, event.level, event.target,
          (Collector.record rule event.fields).message.map Json.string,
          (Collector.record rule event.fields).fields.entries,
          (spanEntries rule event.spans none).2, spans⟩ := by
  rw [Record.ofJson, asObject_object]
  unfold Event.object
  dsimp only
  cases (spanEntries rule event.spans none).1 with
  | nil =>
      cases (Collector.record rule event.fields).message <;>
        cases (spanEntries rule event.spans none).2 <;>
          simp [OrderedMap.get?_insert_of_ne, Record.spansOfJson, asText, asObject_object]
  | cons entry rest =>
      rw [if_neg (List.cons_ne_nil entry rest)]
      generalize entry :: rest = entries
      cases (Collector.record rule event.fields).message <;>
        cases (spanEntries rule event.spans none).2 <;>
          simp [OrderedMap.get?_insert_of_ne, Record.spansOfJson, asText, asObject_object,
            Option.map_eq_bind]

/-- The message of a plain event is read as the field that was shown. -/
theorem get?_message_of_plain {event : Event floats} (plain : event.Plain rule) :
    (Collector.record rule event.fields).message.map Json.string =
      (shownFields rule event.fields).get? "message" := by
  have collects := record_collects rule event.fields
  cases held : (shownFields rule event.fields).get? "message" with
  | none => rw [collects.absent held, Option.map_none]
  | some value =>
      obtain ⟨unhidden, text⟩ := plain.message value held
      cases value
      case string written => rw [collects.text written unhidden held, Option.map_some]
      all_goals cases text

/-- The fields of a plain event, beside the message, are read as they were shown. -/
theorem fields_of_plain {event : Event floats} (plain : event.Plain rule) :
    (Collector.record rule event.fields).fields =
      (shownFields rule event.fields).erase "message" := by
  have collects := record_collects rule event.fields
  refine OrderedMap.ext_get? fun key => ?_
  by_cases same : key = "message"
  · rw [same, OrderedMap.get?_erase_self]
    cases hidden : rule.appliesTo "message" with
    | false => exact collects.unhidden hidden
    | true =>
        rw [collects.other "message" (.inr hidden)]
        refine Option.eq_none_iff_forall_ne_some.mpr fun value held => ?_
        have unhidden := (plain.message value held).1
        rw [hidden] at unhidden
        cases unhidden
  · rw [OrderedMap.get?_erase_of_ne same, collects.other key (.inl same)]

/-- **A line is read as its event, exactly where the event is plain.** -/
theorem ofJson_iff {timestamp : String} {event : Event floats} :
    Record.ofJson (.object (event.object rule timestamp).entries) =
      some (event.record rule timestamp) ↔ event.Plain rule := by
  rw [ofJson_object]
  constructor
  · intro read
    obtain ⟨spans, all, same⟩ := Option.map_eq_some_iff.mp read
    have message := congrArg Record.message same
    have entries : spans = _ := congrArg Record.spans same
    refine ⟨fun value held => ?_, spansOfJson_iff.mp (all.trans (congrArg some entries))⟩
    dsimp only [Event.record] at message
    rw [held] at message
    obtain ⟨text, written, rfl⟩ := Option.map_eq_some_iff.mp message
    refine ⟨?_, rfl⟩
    cases hidden : rule.appliesTo "message" with
    | false => rfl
    | true =>
        rw [(record_collects rule event.fields).hidden hidden] at written
        cases written
  · intro plain
    rw [spansOfJson_iff.mpr plain.spans, Option.map_some, get?_message_of_plain plain,
      fields_of_plain plain, spanEntries_run plain.spans, Option.or_none]
    rfl

/-- The text is one line, and what the line holds is read as the record. -/
def Tells (text : List Char) (record : Record) : Prop :=
  ∃ line members, text = line ++ ['\n'] ∧ '\n' ∉ line ∧
    Json.read line = some (.object members) ∧ Record.ofJson (.object members) = some record

/-- The line of an event tells its record exactly where the event is plain. -/
theorem tells_iff {timestamp : String} {event : Event floats} :
    Tells (formatEvent rule timestamp event) (event.record rule timestamp) ↔ event.Plain rule := by
  constructor
  · rintro ⟨line, members, text, _, read, told⟩
    have same : Json.write (.object (event.object rule timestamp).entries) = line :=
      List.append_cancel_right text
    rw [← same, Json.read_write] at read
    cases read
    exact ofJson_iff.mp told
  · intro plain
    obtain ⟨line, text, whole, read⟩ := formatEvent_line rule timestamp event
    exact ⟨line, _, text, whole, read, ofJson_iff.mpr plain⟩

/-- **The line of an event says what the event was recorded with, exactly where the event is
plain, and is that of every event that differs in the values of redacted fields only.** -/
theorem formatEvent_iff (rule : Redaction) (timestamp : String) (event : Event floats) :
    (Tells (formatEvent rule timestamp event) (event.record rule timestamp) ∧
      ∀ other, event.Alike rule other →
        formatEvent rule timestamp event = formatEvent rule timestamp other) ↔
      event.Plain rule := by
  rw [tells_iff]
  exact and_iff_left fun other alike => formatEvent_alike alike timestamp

/-! ## A span with a name of its own -/

/-- No number is recorded as a decimal. -/
def wholes : Floats := ⟨Empty, fun _ => none, some⟩

/-- A job that says its name in a field. -/
def named : Event wholes where
  level := "INFO"
  target := "app"
  fields := [("message", .text "done")]
  spans := [⟨"job", [("name", .text "mail")], []⟩]

/-- The field takes the place of the span's name. -/
theorem named_lost : ¬ ∀ (floats : Floats) (rule : Redaction) (timestamp : String)
    (event : Event floats),
      Tells (formatEvent rule timestamp event) (event.record rule timestamp) ∧
        ∀ other, event.Alike rule other →
          formatEvent rule timestamp event = formatEvent rule timestamp other := by
  intro every
  have plain := tells_iff.mp (every wholes .new "now" named).1
  exact (plain.spans _ List.mem_cons_self).unnamed _ List.mem_cons_self rfl

end Renvor.Observe
