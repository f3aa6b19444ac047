import Renvor.Observe.JsonEvent

/-! # What an event's line says

A line is read as what it says of an event (`Record.ofJson`) and compared with what the event
was recorded with (`Event.record`). The two are equal exactly where the event is plain
(`Event.Plain`), and of a redacted field a line says its name only.
-/

namespace Renvor.Observe

open Foundation (Json OrderedMap)

/-- What a line says. -/
structure Record where
  timestamp : String
  level : String
  target : String
  message : Option Json
  fields : List (String × Json)
  runId : Option String
  spans : List (String × List (String × Json))

/-- The text of a value, where it is one. -/
def asText : Json → Option String
  | .string text => some text
  | _ => none

/-- The members of a value, where it is an object; a name met again takes the later value. -/
def asObject : Json → Option (OrderedMap String Json)
  | .object members => some (.ofEntries members)
  | _ => none

namespace Record

/-- A span of a line: its name and the other members. -/
def spanOfJson (value : Json) : Option (String × List (String × Json)) := do
  let members ← asObject value
  let name ← (members.get? "name").bind asText
  some (name, (members.erase "name").entries)

/-- The spans of a line that has any. -/
def spansOfJson : Option Json → Option (List (String × List (String × Json)))
  | none => some []
  | some (.array items) => items.mapM spanOfJson
  | some _ => none

/-- The record that a line tells, read by the keys the formatter writes. -/
def ofJson (value : Json) : Option Record := do
  let members ← asObject value
  let timestamp ← (members.get? "timestamp").bind asText
  let level ← (members.get? "level").bind asText
  let target ← (members.get? "target").bind asText
  let fields ← (members.get? "fields").bind asObject
  let spans ← spansOfJson (members.get? "spans")
  some ⟨timestamp, level, target, members.get? "message", fields.entries,
    (members.get? "run_id").bind asText, spans⟩

end Record

/-! ## What is to be said -/

variable {floats : Floats}

/-- A field as it may be shown. -/
def shown (rule : Redaction) (field : Field floats) : String × Json :=
  (field.1, if rule.appliesTo field.1 then .string redacted else boundedValue field.2.json)

/-- The fields as they may be shown, the last of each name. -/
def shownFields (rule : Redaction) (fields : List (Field floats)) : OrderedMap String Json :=
  .ofEntries (fields.map (shown rule))

/-- The fields of a span's creation and of each later record. -/
def Span.batches (span : Span floats) : List (List (Field floats)) :=
  span.attributes :: span.records

/-- What is shown of all fields of a span together. -/
def Span.shownFields (rule : Redaction) (span : Span floats) : OrderedMap String Json :=
  Observe.shownFields rule span.batches.flatten

/-- The run that the innermost span with one names. -/
def runOf (rule : Redaction) (spans : List (Span floats)) : Option String :=
  spans.reverse.findSome? fun span => ((span.shownFields rule).get? "run_id").bind asText

/-- **What an event's line is to say.** -/
def Event.record (rule : Redaction) (timestamp : String) (event : Event floats) : Record where
  timestamp := timestamp
  level := event.level
  target := event.target
  message := (shownFields rule event.fields).get? "message"
  fields := ((shownFields rule event.fields).erase "message").entries
  runId := runOf rule event.spans
  spans := event.spans.map fun span => (span.name, (span.shownFields rule).entries)

/-- A span whose fields have none of its own name's, a text for a message, and decimals that
are read as they were written. -/
structure Span.Plain (rule : Redaction) (span : Span floats) : Prop where
  unnamed : ∀ field ∈ span.batches.flatten, field.1 ≠ "name"
  message : ∀ value, (span.shownFields rule).get? "message" = some value →
    (asText value).isSome = true
  readable : ∀ batch ∈ span.batches, ∀ name value, name ≠ "message" →
    (Observe.shownFields rule batch).get? name = some value → (settle floats value).isSome = true
  settled : ∀ name value, (span.shownFields rule).get? name = some value →
    settle floats value = some value

/-- An event whose message is a text that is not redacted, in plain spans. -/
structure Event.Plain (rule : Redaction) (event : Event floats) : Prop where
  message : ∀ value, (shownFields rule event.fields).get? "message" = some value →
    rule.appliesTo "message" = false ∧ (asText value).isSome = true
  spans : ∀ span ∈ event.spans, span.Plain rule

/-- A name that is a redacted one in any case, as a whole or in its last segment. -/
def Redaction.Hides (rule : Redaction) (name : String) : Prop :=
  ∃ hidden ∈ builtIn ++ rule.extra, toAsciiLowercase name = hidden ∨
    toAsciiLowercase (Redaction.lastSegment name) = hidden

/-- Fields alike, but in the values of redacted ones. -/
def AlikeFields (rule : Redaction) : List (Field floats) → List (Field floats) → Prop :=
  List.Forall₂ fun field other => field.1 = other.1 ∧ (rule.Hides field.1 ∨ field.2 = other.2)

/-- Two spans that differ in hidden values only. -/
structure Span.Alike (rule : Redaction) (span other : Span floats) : Prop where
  name : span.name = other.name
  attributes : AlikeFields rule span.attributes other.attributes
  records : List.Forall₂ (AlikeFields rule) span.records other.records

/-- **Events that differ in the values of redacted fields only.** -/
structure Event.Alike (rule : Redaction) (event other : Event floats) : Prop where
  level : event.level = other.level
  target : event.target = other.target
  fields : AlikeFields rule event.fields other.fields
  spans : List.Forall₂ (Span.Alike rule) event.spans other.spans

/-! ## Redaction -/

/-- Only a dot is a dot in lower case. -/
theorem toLower_dot (character : Char) : character.toLower = '.' ↔ character = '.' := by
  constructor
  · intro lower
    simp only [Char.toLower] at lower
    split at lower
    next upper =>
      exfalso
      have value := congrArg (fun character : Char => character.val.toNat) lower
      simp only [UInt32.le_iff_toNat_le, ge_iff_le] at upper value
      have low : ('A'.val.toNat) = 65 := rfl
      have high : ('Z'.val.toNat) = 90 := rfl
      have dot : ('.'.val.toNat) = 46 := rfl
      have small : ('a'.val - 'A'.val).toNat = 32 := rfl
      rw [UInt32.toNat_add] at value
      omega
    next => exact lower
  · rintro rfl
    rfl

/-- The last segment of a name is lowered with the name. -/
theorem lastSegment_lower (name : String) :
    Redaction.lastSegment (toAsciiLowercase name) = toAsciiLowercase (Redaction.lastSegment name) := by
  rw [Redaction.lastSegment, Redaction.lastSegment, toAsciiLowercase, toAsciiLowercase,
    String.toList_ofList, String.toList_ofList]
  refine congrArg String.ofList ?_
  rw [List.rtakeWhile, List.rtakeWhile, ← List.map_reverse, List.takeWhile_map, ← List.map_reverse]
  have test : ((fun character : Char => decide (character ≠ '.')) ∘ Char.toLower) =
      fun character => decide (character ≠ '.') := by
    funext character
    exact decide_eq_decide.mpr (not_congr (toLower_dot character))
  rw [test]

/-- The rule applies to the names whose last segment it hides, in any case. -/
theorem appliesTo_iff {rule : Redaction} {name : String} :
    rule.appliesTo name = true ↔ rule.Hides name := by
  rw [Redaction.appliesTo, Redaction.Hides, lastSegment_lower, Bool.or_eq_true]
  simp only [Redaction.isListed, Bool.or_eq_true, List.contains_iff_mem, List.mem_append]
  constructor
  · rintro (whole | last)
    · exact ⟨_, whole, .inl rfl⟩
    · exact ⟨_, last, .inr rfl⟩
  · rintro ⟨hidden, listed, rfl | rfl⟩
    · exact .inl listed
    · exact .inr listed

namespace Collector

variable {rule : Redaction} {collector : Collector} {name : String} {value : Json}

/-- A hidden field is collected as the mark of what was redacted. -/
theorem put_hidden (hidden : rule.appliesTo name = true) : collector.put rule name value =
    { collector with fields := collector.fields.insert name (.string redacted) } :=
  if_pos hidden

/-- A field beside the message is collected with its value, cut to the bound. -/
theorem put_other (plain : rule.appliesTo name = false) (other : name ≠ "message") :
    collector.put rule name value =
      { collector with fields := collector.fields.insert name (boundedValue value) } := by
  rw [put, if_neg (by rw [plain]; decide), if_neg other]

/-- A message is collected apart, if it is a text, and else leaves what was there. -/
theorem put_message (plain : rule.appliesTo "message" = false) :
    collector.put rule "message" value =
      { collector with message := (asText (boundedValue value)).or collector.message } := by
  rw [put, if_neg (by rw [plain]; decide), if_pos rfl]
  cases boundedValue value <;> rfl

/-- The last field is collected last. -/
theorem record_concat (rule : Redaction) (fields : List (Field floats)) (field : Field floats) :
    record rule (fields ++ [field]) = (record rule fields).put rule field.1 field.2.json := by
  rw [record, List.foldl_append]
  rfl

/-- Fields that differ in hidden values only are collected alike. -/
theorem record_alike {rule : Redaction} {fields others : List (Field floats)}
    (alike : AlikeFields rule fields others) : record rule fields = record rule others := by
  unfold record
  generalize new = collector
  induction alike generalizing collector with
  | nil => rfl
  | @cons field other _ _ head _ ih =>
      have put : collector.put rule field.1 field.2.json = collector.put rule other.1 other.2.json := by
        obtain ⟨name, hidden | same⟩ := head
        · have applies := appliesTo_iff.mpr hidden
          rw [put_hidden applies, put_hidden (name ▸ applies), name]
        · rw [name, same]
      rw [List.foldl_cons, List.foldl_cons, put, ih]

end Collector

/-- Spans that differ in hidden values only are stored alike. -/
theorem stored_alike {rule : Redaction} {span other : Span floats} (alike : span.Alike rule other) :
    span.stored rule = other.stored rule := by
  have format : ∀ {fields others : List (Field floats)}, AlikeFields rule fields others →
      formatFields rule fields = formatFields rule others := fun same => by
    rw [formatFields, formatFields, Collector.record_alike same]
  rw [Span.stored, Span.stored, format alike.attributes]
  generalize formatFields rule other.attributes = current
  have run : ∀ {records others : List (List (Field floats))},
      List.Forall₂ (AlikeFields rule) records others → ∀ current,
        records.foldl (addFields rule) current = others.foldl (addFields rule) current := by
    intro records others same
    induction same with
    | nil => exact fun _ => rfl
    | cons head _ ih =>
        intro current
        rw [List.foldl_cons, List.foldl_cons, addFields, addFields, format head, ih]
  exact run alike.records current

/-- Lists of spans that differ in hidden values only have the same entries. -/
theorem spanEntries_alike {rule : Redaction} {spans others : List (Span floats)}
    (alike : List.Forall₂ (Span.Alike rule) spans others) (runId : Option String) :
    spanEntries rule spans runId = spanEntries rule others runId := by
  induction alike generalizing runId with
  | nil => rfl
  | @cons span other _ _ head _ ih =>
      have entry : spanEntry rule span runId = spanEntry rule other runId := by
        rw [spanEntry, stored_alike head, head.name, ← spanEntry]
      rw [spanEntries, spanEntries, entry]
      simp only [ih]

/-- **Of a redacted field a line says the name only.** -/
theorem formatEvent_alike {rule : Redaction} {event other : Event floats}
    (alike : event.Alike rule other) (timestamp : String) :
    formatEvent rule timestamp event = formatEvent rule timestamp other := by
  rw [formatEvent, formatEvent, Event.object, Event.object, Collector.record_alike alike.fields,
    alike.level, alike.target, spanEntries_alike alike.spans]

end Renvor.Observe
