import Renvor.Observe.EventRecord

/-! # Events read from their lines

What is stored for a span is read as the fields it was made of, where they are texts, whole
numbers, or decimals that are read as they were written.
-/

namespace Renvor.Observe

open Foundation (Json OrderedMap)

variable {floats : Floats} {rule : Redaction}

/-! ## Collected fields -/

/-- A field recorded last is shown under its key, over whatever the fields before it had there. -/
theorem shownFields_concat (fields : List (Field floats)) (field : Field floats) :
    shownFields rule (fields ++ [field]) =
      (shownFields rule fields).insert field.1 (shown rule field).2 := by
  rw [shownFields, List.map_append, List.map_singleton, OrderedMap.ofEntries_concat]
  rfl

/-- Of two records made one after the other the later one decides, where it has the key at all. -/
theorem get?_shownFields_append (front back : List (Field floats)) (key : String) :
    (shownFields rule (front ++ back)).get? key =
      ((shownFields rule back).get? key).or ((shownFields rule front).get? key) := by
  rw [shownFields, List.map_append, OrderedMap.get?_ofEntries_append]
  rfl

/-- Nothing is shown under a key exactly where no field of that key was recorded. -/
theorem get?_shownFields_none {fields : List (Field floats)} {key : String} :
    (shownFields rule fields).get? key = none ↔ ∀ field ∈ fields, field.1 ≠ key := by
  rw [shownFields, OrderedMap.get?_ofEntries_none]
  constructor
  · rintro absent field member rfl
    exact absent _ (List.mem_map_of_mem member)
  · intro absent value member
    obtain ⟨field, listed, same⟩ := List.mem_map.mp member
    exact absent field listed (congrArg Prod.fst same)

/-- Under a key that the rule hides nothing is shown but the mark of what was redacted. -/
theorem shown_hidden {fields : List (Field floats)} {key : String} {value : Json}
    (hidden : rule.appliesTo key = true) (held : (shownFields rule fields).get? key = some value) :
    value = .string redacted := by
  obtain ⟨field, _, same⟩ := List.mem_map.mp (OrderedMap.mem_of_get?_ofEntries held)
  cases same
  exact if_pos hidden

/-- What is collected of the fields shown. -/
structure Collects (rule : Redaction) (collector : Collector) (shown : OrderedMap String Json) :
    Prop where
  other : ∀ key, key ≠ "message" ∨ rule.appliesTo "message" = true →
    collector.fields.get? key = shown.get? key
  hidden : rule.appliesTo "message" = true → collector.message = none
  unhidden : rule.appliesTo "message" = false → collector.fields.get? "message" = none
  absent : shown.get? "message" = none → collector.message = none
  text : ∀ text, rule.appliesTo "message" = false →
    shown.get? "message" = some (.string text) → collector.message = some text

/-- A field beside the message. -/
theorem Collects.insert {collector : Collector} {shown : OrderedMap String Json}
    (collects : Collects rule collector shown) {name : String}
    (beside : name ≠ "message" ∨ rule.appliesTo "message" = true) (value : Json) :
    Collects rule { collector with fields := collector.fields.insert name value }
      (shown.insert name value) := by
  have away : rule.appliesTo "message" = false → "message" ≠ name := by
    rintro plain rfl
    exact beside.elim (fun other => other rfl) fun hidden => by rw [plain] at hidden; cases hidden
  refine ⟨fun key apart => ?_, collects.hidden, fun plain => ?_, fun absent => ?_,
    fun text plain held => ?_⟩
  · by_cases same : key = name
    · rw [same, OrderedMap.get?_insert_self, OrderedMap.get?_insert_self]
    · rw [OrderedMap.get?_insert_of_ne same, OrderedMap.get?_insert_of_ne same]
      exact collects.other key apart
  · rw [OrderedMap.get?_insert_of_ne (away plain)]
    exact collects.unhidden plain
  · refine collects.absent ?_
    rwa [OrderedMap.get?_insert_of_ne] at absent
    rintro rfl
    rw [OrderedMap.get?_insert_self] at absent
    cases absent
  · rw [OrderedMap.get?_insert_of_ne (away plain)] at held
    exact collects.text text plain held

/-- Recording fields collects what is shown of them, the message kept apart from the others. -/
theorem record_collects (rule : Redaction) (fields : List (Field floats)) :
    Collects rule (Collector.record rule fields) (shownFields rule fields) := by
  induction fields using List.reverseRecOn with
  | nil => exact ⟨fun _ _ => rfl, fun _ => rfl, fun _ => rfl, fun _ => rfl,
      fun _ _ held => by cases held⟩
  | append_singleton rest field ih =>
      obtain ⟨name, value⟩ := field
      rw [Collector.record_concat, shownFields_concat]
      cases applies : rule.appliesTo name with
      | true =>
          rw [Collector.put_hidden applies, shown, if_pos applies]
          refine ih.insert ?_ _
          by_cases same : name = "message"
          · exact .inr (same ▸ applies)
          · exact .inl same
      | false =>
          rw [shown, if_neg (by rw [applies]; decide)]
          by_cases same : name = "message"
          · subst same
            rw [Collector.put_message applies]
            refine ⟨fun key apart => ?_, fun hidden => ?_, ih.unhidden, fun absent => ?_,
              fun text _ held => ?_⟩
            · rcases apart with other | hidden
              · rw [OrderedMap.get?_insert_of_ne other]
                exact ih.other key (.inl other)
              · rw [applies] at hidden
                cases hidden
            · rw [applies] at hidden
              cases hidden
            · rw [OrderedMap.get?_insert_self] at absent
              cases absent
            · rw [OrderedMap.get?_insert_self] at held
              have written : boundedValue value.json = .string text := Option.some.inj held
              dsimp only
              rw [written]
              rfl
          · rw [Collector.put_other applies same]
            exact ih.insert (.inl same) _

/-! ## Kept fields -/

/-- What a span keeps of the fields shown: of messages the texts. -/
structure Keeps (rule : Redaction) (kept shown : OrderedMap String Json) : Prop where
  other : ∀ key ≠ "message", kept.get? key = shown.get? key
  absent : shown.get? "message" = none → kept.get? "message" = none
  text : ∀ text, shown.get? "message" = some (.string text) →
    kept.get? "message" = some (.string text)
  string : ∀ value, kept.get? "message" = some value → (asText value).isSome = true

/-- The members written for one record are what is shown of its fields, and of messages the
texts. -/
theorem record_keeps (rule : Redaction) (fields : List (Field floats)) :
    Keeps rule (Collector.record rule fields).withMessage (shownFields rule fields) := by
  have collects := record_collects rule fields
  cases applies : rule.appliesTo "message" with
  | true =>
      have same : ∀ key, (Collector.record rule fields).withMessage.get? key =
          (shownFields rule fields).get? key := fun key => by
        rw [Collector.withMessage, collects.hidden applies]
        exact collects.other key (.inr applies)
      refine ⟨fun key _ => same key, fun absent => (same _).trans absent,
        fun text held => (same _).trans held, fun value held => ?_⟩
      rw [shown_hidden applies ((same _).symm.trans held)]
      rfl
  | false =>
      cases message : (Collector.record rule fields).message with
      | none =>
          rw [Collector.withMessage, message]
          refine ⟨fun key other => collects.other key (.inl other),
            fun _ => collects.unhidden applies, fun text held => ?_, fun value held => ?_⟩
          · rw [collects.text text applies held] at message
            cases message
          · rw [collects.unhidden applies] at held
            cases held
      | some written =>
          rw [Collector.withMessage, message]
          refine ⟨fun key other => ?_, fun absent => ?_, fun text held => ?_, fun value held => ?_⟩
          · rw [OrderedMap.get?_insert_of_ne other]
            exact collects.other key (.inl other)
          · rw [collects.absent absent] at message
            cases message
          · rw [collects.text text applies held] at message
            rw [OrderedMap.get?_insert_self, Option.some.inj message]
          · rw [OrderedMap.get?_insert_self] at held
            rw [← Option.some.inj held]
            rfl

/-- The members written for some records of a span. -/
def kept (rule : Redaction) (batches : List (List (Field floats))) : List (String × Json) :=
  batches.flatMap fun batch => (Collector.record rule batch).withMessage.entries

/-- The members written for all the records of a span are what is shown of all its fields
together. -/
theorem kept_keeps (rule : Redaction) (batches : List (List (Field floats))) :
    Keeps rule (.ofEntries (kept rule batches)) (shownFields rule batches.flatten) := by
  induction batches with
  | nil => exact ⟨fun _ _ => rfl, fun _ => rfl, (fun _ held => by cases held),
      (fun _ held => by cases held)⟩
  | cons batch rest ih =>
      have first := record_keeps rule batch
      have held : ∀ key, (OrderedMap.ofEntries (kept rule (batch :: rest))).get? key =
          ((OrderedMap.ofEntries (kept rule rest)).get? key).or
            ((Collector.record rule batch).withMessage.get? key) := fun key => by
        rw [kept, List.flatMap_cons, OrderedMap.get?_ofEntries_append, OrderedMap.ofEntries_entries]
        rfl
      have shows : ∀ key, (shownFields rule (batch :: rest).flatten).get? key =
          ((shownFields rule rest.flatten).get? key).or ((shownFields rule batch).get? key) :=
        fun key => by rw [List.flatten_cons, get?_shownFields_append]
      refine ⟨fun key other => ?_, fun absent => ?_, fun text written => ?_, fun value whole => ?_⟩
      · rw [held, shows, ih.other key other, first.other key other]
      · rw [shows, Option.or_eq_none_iff] at absent
        rw [held, ih.absent absent.1, first.absent absent.2]
        rfl
      · rw [shows] at written
        rw [held]
        cases later : (shownFields rule rest.flatten).get? "message" with
        | none =>
            rw [later, Option.none_or] at written
            rw [ih.absent later, Option.none_or]
            exact first.text text written
        | some value =>
            rw [later, Option.some_or] at written
            rw [ih.text text (later.trans written), Option.some_or]
      · rw [held] at whole
        rcases Option.or_eq_some_iff.mp whole with later | ⟨_, earlier⟩
        · exact ih.string value later
        · exact first.string value earlier

/-! ## Stored fields -/

/-- Members are written one by one, so two lists of them are written one after the other. -/
theorem writeMembers_append (front back : List (String × Json)) :
    Json.writeMembers (front ++ back) = Json.writeMembers front ++ Json.writeMembers back := by
  induction front with
  | nil => rfl
  | cons member rest ih =>
      rw [List.cons_append, Json.writeMembers, Json.writeMembers, ih, List.cons_append]

/-- Joined members that are not empty, and more of them behind, are joined by one comma. -/
theorem joined_append {front back : List (List Char)} (first : front ≠ []) (second : back ≠ []) :
    Json.joined (front ++ back) = Json.joined front ++ ',' :: Json.joined back := by
  induction front with
  | nil => exact (first rfl).elim
  | cons part rest ih =>
      cases rest with
      | nil =>
          cases back with
          | nil => exact (second rfl).elim
          | cons next more => rfl
      | cons next more =>
          rw [List.cons_append, List.cons_append, Json.joined_cons, ← List.cons_append,
            ih (List.cons_ne_nil _ _), Json.joined_cons, List.append_assoc, List.cons_append]

/-- Nothing is written only where there are no members, so an empty text stands for none. -/
theorem joined_nil {members : List (String × Json)} :
    Json.joined (Json.writeMembers members) = [] ↔ members = [] := by
  cases members with
  | nil => exact iff_of_true rfl rfl
  | cons member rest =>
      refine iff_of_false ?_ (List.cons_ne_nil _ _)
      cases rest with
      | nil => exact List.cons_ne_nil _ _
      | cons next more => exact List.cons_ne_nil _ _

/-- Recording more fields in a span adds their members behind those that it had stored. -/
theorem addFields_joined (members : List (String × Json)) (fields : List (Field floats)) :
    addFields rule (Json.joined (Json.writeMembers members)) fields =
      Json.joined (Json.writeMembers (members ++ (Collector.record rule fields).withMessage.entries)) := by
  rw [addFields, formatFields, pairs]
  by_cases added : (Collector.record rule fields).withMessage.entries = []
  · rw [if_pos (joined_nil.mpr added), added, List.append_nil]
  · rw [if_neg (mt joined_nil.mp added)]
    by_cases before : members = []
    · rw [if_pos (joined_nil.mpr before), before, List.nil_append]
    · have parts : ∀ {members : List (String × Json)}, members ≠ [] →
          Json.writeMembers members ≠ [] := fun {members} some_member empty => by
        refine mt joined_nil.mp some_member ?_
        rw [empty]
        rfl
      rw [if_neg (mt joined_nil.mp before), writeMembers_append,
        joined_append (parts before) (parts added)]

/-- What a span has stored in the end are the members of all its records, joined by commas. -/
theorem stored_kept (span : Span floats) :
    span.stored rule = Json.joined (Json.writeMembers (kept rule span.batches)) := by
  have run : ∀ (records : List (List (Field floats))) (members : List (String × Json)),
      records.foldl (addFields rule) (Json.joined (Json.writeMembers members)) =
        Json.joined (Json.writeMembers (members ++ kept rule records)) := by
    intro records
    induction records with
    | nil =>
        intro members
        rw [kept, List.flatMap_nil, List.append_nil, List.foldl_nil]
    | cons batch rest ih =>
        intro members
        rw [List.foldl_cons, addFields_joined, ih, kept, kept, List.flatMap_cons, List.append_assoc]
  exact run span.records _

/-- The members of a text once read. -/
def settled (floats : Floats) (members : List (String × Json)) : Option (List (String × Json)) :=
  members.mapM fun member => (settle floats member.2).map (Prod.mk member.1)

/-- The fields a span's text is read as. -/
def readFields (rule : Redaction) (span : Span floats) : OrderedMap String Json :=
  match settled floats (kept rule span.batches) with
  | some members => .ofEntries members
  | none => .empty

/-- The fields read from what a span stored are those read from its members, a key met again
taking the later value. -/
theorem spanFields_stored (span : Span floats) :
    spanFields floats (span.stored rule) = (readFields rule span).entries := by
  rw [stored_kept, spanFields, readFields]
  by_cases empty : kept rule span.batches = []
  · rw [if_pos (joined_nil.mpr empty), empty]
    rfl
  · have read : Json.read ('{' :: Json.joined (Json.writeMembers (kept rule span.batches)) ++ ['}']) =
        some (.object (kept rule span.batches)) := Json.read_write (.object (kept rule span.batches))
    have object : fromStr floats ('{' :: Json.joined (Json.writeMembers (kept rule span.batches)) ++
        ['}']) = (settled floats (kept rule span.batches)).map fun members =>
          .object (OrderedMap.ofEntries members).entries := by
      rw [fromStr, read]
      rfl
    rw [if_neg (mt joined_nil.mp empty), object]
    cases settled floats (kept rule span.batches) <;> rfl

/-- Where a partial map is defined on every item, its results are those of the items, in their
order. -/
theorem mapM_some {Item Other : Type} {change : Item → Option Other} {items : List Item}
    {changed : List Other} (all : items.mapM change = some changed) :
    List.Forall₂ (fun item other => change item = some other) items changed := by
  induction items generalizing changed with
  | nil =>
      cases all
      exact .nil
  | cons item rest ih =>
      rw [List.mapM_cons] at all
      obtain ⟨other, head, all⟩ := Option.bind_eq_some_iff.mp all
      obtain ⟨others, tail, whole⟩ := Option.bind_eq_some_iff.mp all
      cases whole
      exact .cons head (ih tail)

/-- A partial map is defined on a list where it is defined on each of its items. -/
theorem mapM_of_isSome {Item Other : Type} {change : Item → Option Other} {items : List Item}
    (each : ∀ item ∈ items, (change item).isSome = true) : ∃ changed, items.mapM change = some changed := by
  induction items with
  | nil => exact ⟨[], rfl⟩
  | cons item rest ih =>
      obtain ⟨other, head⟩ := Option.isSome_iff_exists.mp (each item List.mem_cons_self)
      obtain ⟨others, tail⟩ := ih fun later member => each later (List.mem_cons_of_mem item member)
      refine ⟨other :: others, ?_⟩
      rw [List.mapM_cons, head, tail]
      rfl

/-- Each item of the first of two lists related item by item is related to one of the second. -/
theorem mem_isSome {Item Other : Type} {relation : Item → Other → Prop} {items : List Item}
    {others : List Other} (each : List.Forall₂ relation items others) {item : Item}
    (member : item ∈ items) : ∃ other, relation item other := by
  induction each with
  | nil => exact (List.not_mem_nil member).elim
  | cons head _ ih =>
      rcases List.mem_cons.mp member with rfl | later
      · exact ⟨_, head⟩
      · exact ih later

/-- A text is settled on as it is, since no decimal has to be read in it. -/
theorem settle_text {value : Json} (text : (asText value).isSome = true) :
    settle floats value = some value := by
  cases value <;> first | rfl | cases text

/-- What is under each name once read. -/
theorem get?_settled {members changed : List (String × Json)}
    (all : settled floats members = some changed) (key : String) :
    (OrderedMap.ofEntries changed).get? key =
      ((OrderedMap.ofEntries members).get? key).bind (settle floats) := by
  refine OrderedMap.get?_ofEntries_map ((mapM_some all).imp fun member other same => ?_) key
  obtain ⟨value, settles, rfl⟩ := Option.map_eq_some_iff.mp same
  exact ⟨rfl, settles⟩

/-- Where the members of a span could be settled, each of them could. -/
theorem settled_mem {members changed : List (String × Json)}
    (all : settled floats members = some changed) {member : String × Json} (listed : member ∈ members) :
    (settle floats member.2).isSome = true := by
  obtain ⟨_, same⟩ := mem_isSome (mapM_some all) listed
  obtain ⟨value, settles, _⟩ := Option.map_eq_some_iff.mp same
  exact Option.isSome_iff_exists.mpr ⟨value, settles⟩

/-- A name that no field has is under none of those read. -/
theorem readFields_none {span : Span floats} {key : String}
    (absent : (span.shownFields rule).get? key = none) : (readFields rule span).get? key = none := by
  have keeps := kept_keeps rule span.batches
  rw [readFields]
  cases all : settled floats (kept rule span.batches) with
  | none => rfl
  | some members =>
      have none : (OrderedMap.ofEntries (kept rule span.batches)).get? key = none := by
        by_cases message : key = "message"
        · rw [message] at absent ⊢
          exact keeps.absent absent
        · exact (keeps.other key message).trans absent
      rw [get?_settled all, none]
      rfl

/-- A span whose fields are plain is read as the fields it shows, each with the value it was
shown with. -/
theorem readFields_of_plain {span : Span floats} (plain : span.Plain rule) :
    readFields rule span = span.shownFields rule := by
  have keeps := kept_keeps rule span.batches
  have each : ∀ member ∈ kept rule span.batches,
      ((settle floats member.2).map (Prod.mk member.1)).isSome = true := by
    intro member listed
    obtain ⟨batch, among, entry⟩ := List.mem_flatMap.mp listed
    have held := OrderedMap.get?_some.mpr entry
    rw [Option.isSome_map]
    by_cases message : member.1 = "message"
    · rw [message] at held
      rw [settle_text ((record_keeps rule batch).string _ held)]
      rfl
    · rw [(record_keeps rule batch).other _ message] at held
      exact plain.readable batch among _ _ message held
  obtain ⟨members, all⟩ := mapM_of_isSome each
  refine OrderedMap.ext_get? fun key => ?_
  rw [readFields, show settled floats (kept rule span.batches) = some members from all]
  refine (get?_settled all key).trans ?_
  cases held : (span.shownFields rule).get? key with
  | none =>
      by_cases message : key = "message"
      · rw [message] at held ⊢
        rw [keeps.absent held]
        rfl
      · rw [keeps.other key message]
        exact congrArg (Option.bind · (settle floats)) held
  | some value =>
      have same : (OrderedMap.ofEntries (kept rule span.batches)).get? key = some value := by
        by_cases message : key = "message"
        · rw [message] at held ⊢
          have text := plain.message value held
          cases value <;> first | exact keeps.text _ held | cases text
        · exact (keeps.other key message).trans held
      rw [same, Option.bind_some]
      exact plain.settled key value held

/-- A span that is read as the fields it shows had plain fields only, provided that none was
called `name`. -/
theorem plain_of_readFields {span : Span floats}
    (unnamed : ∀ field ∈ span.batches.flatten, field.1 ≠ "name")
    (same : readFields rule span = span.shownFields rule) : span.Plain rule := by
  have keeps := kept_keeps rule span.batches
  rw [readFields] at same
  cases all : settled floats (kept rule span.batches) with
  | none =>
      rw [all] at same
      have nothing : ∀ key, (span.shownFields rule).get? key = none := fun key => by
        rw [← same]
        rfl
      refine ⟨unnamed, fun value held => ?_, fun batch among name value _ held => ?_,
        fun name value held => ?_⟩
      · rw [nothing] at held
        cases held
      · have none := get?_shownFields_none.mp (nothing name)
        obtain ⟨field, listed, whole⟩ := List.mem_map.mp (OrderedMap.mem_of_get?_ofEntries held)
        exact (none field (List.mem_flatten.mpr ⟨batch, among, listed⟩)
          (congrArg Prod.fst whole)).elim
      · rw [nothing] at held
        cases held
  | some members =>
      rw [all] at same
      have reads : ∀ key, (span.shownFields rule).get? key =
          ((OrderedMap.ofEntries (kept rule span.batches)).get? key).bind (settle floats) :=
        fun key => by rw [← same, get?_settled all]
      have message : ∀ value, (span.shownFields rule).get? "message" = some value →
          (asText value).isSome = true := by
        intro value held
        rw [reads] at held
        obtain ⟨written, whole, settles⟩ := Option.bind_eq_some_iff.mp held
        have text := keeps.string written whole
        rw [settle_text text] at settles
        rwa [← Option.some.inj settles]
      refine ⟨unnamed, message, fun batch among name value other held => ?_,
        fun name value held => ?_⟩
      · rw [← (record_keeps rule batch).other name other] at held
        exact settled_mem all (List.mem_flatMap.mpr ⟨batch, among, OrderedMap.get?_some.mp held⟩)
      · by_cases other : name = "message"
        · rw [other] at held
          exact settle_text (message value held)
        · have whole := reads name
          rw [keeps.other name other] at whole
          rw [show (shownFields rule span.batches.flatten).get? name = some value from held] at whole
          rw [held] at whole
          exact whole.symm

end Renvor.Observe
