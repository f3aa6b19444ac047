import Renvor.Config.Environment

/-! # What the environment layer holds

A value grafted where nothing is stands under its path, and nothing else changes but the
tables on the way (`Renvor.Environment.valueAt_merge`). So a layer holds what its variables
say just where no key is another's, or stands below it (`Renvor.Environment.faithful_iff`).
-/

namespace Renvor.Environment

/-- The value under a path. -/
def valueAt : List String → TomlValue → Option TomlValue
  | [], value => some value
  | key :: rest, .table entries => (entries.lookup key).bind (valueAt rest)
  | _ :: _, _ => none

/-- Neither path goes on from the other. -/
def Apart (first second : List String) : Prop := ¬first <+: second ∧ ¬second <+: first

theorem Apart.symm {first second : List String} (apart : Apart first second) :
    Apart second first :=
  ⟨apart.2, apart.1⟩

/-- The table a key holds. -/
def tableAt (table : TomlTable) (name : String) : TomlTable :=
  match table.lookup name with
  | some (.table entries) => entries
  | _ => []

section Merge

variable {table : TomlTable} {path other : List String} {value : TomlValue}

theorem valueAt_append (first rest : List String) (value : TomlValue) :
    valueAt (first ++ rest) value = (valueAt first value).bind (valueAt rest) := by
  induction first generalizing value with
  | nil => rfl
  | cons key first ih =>
      cases value with
      | table entries =>
          show (entries.lookup key).bind (valueAt (first ++ rest)) =
            ((entries.lookup key).bind (valueAt first)).bind (valueAt rest)
          rw [Option.bind_assoc]
          exact congrArg _ (funext ih)
      | string | integer | float | boolean | datetime | array => rfl

theorem valueAt_nothing (nonempty : path ≠ []) : valueAt path (.table []) = none := by
  cases path with
  | nil => exact absurd rfl nonempty
  | cons key rest => rfl

/-- A key is under a table's key what is under the table the key holds. -/
theorem valueAt_tableAt {name : String} (nonempty : path ≠ []) :
    valueAt (name :: path) (.table table) = valueAt path (.table (tableAt table name)) := by
  unfold tableAt
  show (table.lookup name).bind (valueAt path) = _
  cases path with
  | nil => exact absurd rfl nonempty
  | cons key rest =>
      cases table.lookup name with
      | none => rfl
      | some held => cases held <;> rfl

theorem merge_single {name : String} (free : table.lookup name = none) :
    mergeInto table [name] value = table.insert name value := by
  show graft table name value = _
  cases value with
  | table incoming =>
      rw [graft, free]
  | string | integer | float | boolean | datetime | array => rfl

theorem merge_nothing (nonempty : path ≠ []) : mergeInto [] path value = nest path value := by
  match path, nonempty with
  | [segment], _ =>
      rw [merge_single rfl]
      rfl
  | segment :: second :: rest, _ =>
      show graft [] segment (.table (nest (second :: rest) value)) = _
      rfl

theorem merge_below {name : String} (nonempty : path ≠ []) :
    mergeInto table (name :: path) value =
      table.insert name (.table (mergeInto (tableAt table name) path value)) := by
  obtain ⟨second, rest, rfl⟩ := List.exists_cons_of_ne_nil nonempty
  show graft table name (.table (nest (second :: rest) value)) = _
  rw [graft, tableAt]
  cases table.lookup name with
  | none => rw [merge_nothing nonempty]
  | some held =>
      cases held with
      | table existing => rfl
      | string | integer | float | boolean | datetime | array => rw [merge_nothing nonempty]

/-- What is under a path where a value was grafted, where nothing was. -/
structure Grafted (table : TomlTable) (path : List String) (value : TomlValue)
    (after : TomlTable) : Prop where
  held : ∀ rest, valueAt (path ++ rest) (.table after) = valueAt rest value
  apart : ∀ other, Apart path other → valueAt other (.table after) = valueAt other (.table table)
  above : ∀ other, other <+: path → other ≠ path →
    ∃ entries, valueAt other (.table after) = some (.table entries)

theorem valueAt_insert {name key : String} {rest : List String} {held : TomlValue} :
    valueAt (key :: rest) (.table (table.insert name held)) =
      if key = name then valueAt rest held else valueAt (key :: rest) (.table table) := by
  show ((table.insert name held).lookup key).bind (valueAt rest) = _
  rw [TomlTable.lookup_insert]
  split
  next => rfl
  next => rfl

/-- **A value is grafted where nothing is.** -/
theorem valueAt_merge (value : TomlValue) (free : valueAt path (.table table) = none) :
    Grafted table path value (mergeInto table path value) := by
  induction path generalizing table with
  | nil => cases free
  | cons name path ih =>
      by_cases last : path = []
      · subst last
        have absent : table.lookup name = none := by
          have bound : (table.lookup name).bind (valueAt []) = none := free
          cases held : table.lookup name with
          | none => rfl
          | some value =>
              rw [held] at bound
              cases bound
        rw [merge_single absent]
        refine ⟨fun rest => ?_, fun other apart => ?_, fun other before different => ?_⟩
        · rw [List.singleton_append, valueAt_insert, if_pos rfl]
        · cases other with
          | nil => exact absurd (List.nil_prefix) apart.2
          | cons key rest =>
              rw [valueAt_insert, if_neg]
              rintro rfl
              exact apart.1 (List.prefix_append [key] rest)
        · cases other with
          | nil => exact ⟨_, rfl⟩
          | cons key rest =>
              obtain ⟨rfl, begins⟩ := List.cons_prefix_cons.mp before
              rw [List.prefix_nil.mp begins] at different
              exact absurd rfl different
      · rw [valueAt_tableAt last] at free
        have below := ih free
        rw [merge_below last]
        refine ⟨fun rest => ?_, fun other apart => ?_, fun other before different => ?_⟩
        · rw [List.cons_append, valueAt_insert, if_pos rfl]
          exact below.held rest
        · cases other with
          | nil => exact absurd (List.nil_prefix) apart.2
          | cons key rest =>
              rw [valueAt_insert]
              split
              next same =>
                subst same
                have away : Apart path rest :=
                  ⟨fun begins => apart.1 (List.cons_prefix_cons.mpr ⟨rfl, begins⟩),
                    fun begins => apart.2 (List.cons_prefix_cons.mpr ⟨rfl, begins⟩)⟩
                have nonempty : rest ≠ [] := by
                  rintro rfl
                  exact away.2 List.nil_prefix
                rw [valueAt_tableAt nonempty]
                exact below.apart rest away
              next => rfl
        · cases other with
          | nil => exact ⟨_, rfl⟩
          | cons key rest =>
              obtain ⟨rfl, begins⟩ := List.cons_prefix_cons.mp before
              rw [valueAt_insert, if_pos rfl]
              exact below.above rest begins fun same => different (congrArg _ same)

end Merge

theorem pairwise_of_parts {α : Type*} {relation : α → α → Prop} {list : List α}
    (parts : ∀ before first between second after,
      list = before ++ first :: (between ++ second :: after) → relation first second) :
    list.Pairwise relation := by
  induction list with
  | nil => exact List.Pairwise.nil
  | cons head rest ih =>
      refine List.pairwise_cons.mpr ⟨fun other member => ?_, ih ?_⟩
      · obtain ⟨between, after, rfl⟩ := List.append_of_mem member
        exact parts [] head between other after rfl
      · intro before first between second after same
        exact parts (head :: before) first between second after (congrArg (head :: ·) same)

/-! ## Grafting one after the other -/

/-- A value and the path it is grafted under. -/
abbrev Graft := List String × TomlValue

def run (table : TomlTable) (grafts : List Graft) : TomlTable :=
  grafts.foldl (fun table graft => mergeInto table graft.1 graft.2) table

/-- Each value is grafted where nothing is. -/
def Free : TomlTable → List Graft → Prop
  | _, [] => True
  | table, graft :: rest =>
      valueAt graft.1 (.table table) = none ∧ Free (mergeInto table graft.1 graft.2) rest

section Run

variable {table : TomlTable} {grafts before after : List Graft} {graft : Graft}
  {path : List String}

theorem run_append : run table (before ++ after) = run (run table before) after :=
  List.foldl_append

theorem free_append :
    Free table (before ++ after) ↔ Free table before ∧ Free (run table before) after := by
  induction before generalizing table with
  | nil => exact ⟨fun free => ⟨trivial, free⟩, fun free => free.2⟩
  | cons graft before ih =>
      rw [List.cons_append, Free, ih, Free, and_assoc]
      rfl

theorem some_of_longer (rest : List String) {value : TomlValue}
    (held : (valueAt (path ++ rest) value).isSome = true) : (valueAt path value).isSome = true := by
  rw [valueAt_append] at held
  cases first : valueAt path value with
  | none =>
      rw [first] at held
      cases held
  | some => rfl

/-- What is held stays held, and nothing is grafted above it. -/
theorem Free.held (free : Free table grafts) (held : (valueAt path (.table table)).isSome = true) :
    (valueAt path (.table (run table grafts))).isSome = true ∧
      ∀ graft ∈ grafts, ¬graft.1 <+: path := by
  induction grafts generalizing table with
  | nil => exact ⟨held, fun _ member => nomatch member⟩
  | cons graft grafts ih =>
      obtain ⟨absent, free⟩ := free
      have grafted := valueAt_merge graft.2 absent
      have below : ¬graft.1 <+: path := by
        rintro ⟨rest, rfl⟩
        have above := some_of_longer rest held
        rw [absent] at above
        cases above
      have still : (valueAt path (.table (mergeInto table graft.1 graft.2))).isSome = true := by
        by_cases above : path <+: graft.1
        · obtain ⟨entries, same⟩ := grafted.above path above fun same =>
            below (same ▸ List.prefix_refl _)
          rw [same]
          rfl
        · rw [grafted.apart path ⟨below, above⟩]
          exact held
      obtain ⟨last, others⟩ := ih free still
      refine ⟨last, fun other member => ?_⟩
      rcases List.mem_cons.mp member with rfl | later
      · exact below
      · exact others other later

/-- What is grafted is held in the end. -/
theorem Free.grafted (free : Free table grafts) (member : graft ∈ grafts) :
    (valueAt graft.1 (.table (run table grafts))).isSome = true := by
  obtain ⟨before, after, rfl⟩ := List.append_of_mem member
  obtain ⟨_, absent, free⟩ := free_append.mp free
  have own := (valueAt_merge graft.2 absent).held []
  rw [List.append_nil] at own
  rw [run_append]
  exact (free.held (by rw [own]; rfl)).1

/-- What no graft goes near is kept. -/
theorem Free.kept (free : Free table grafts) (apart : ∀ graft ∈ grafts, Apart graft.1 path) :
    valueAt path (.table (run table grafts)) = valueAt path (.table table) := by
  induction grafts generalizing table with
  | nil => rfl
  | cons graft grafts ih =>
      obtain ⟨absent, free⟩ := free
      refine (ih free fun other member => apart other (List.mem_cons_of_mem _ member)).trans ?_
      exact (valueAt_merge graft.2 absent).apart path (apart graft List.mem_cons_self)

/-- What is grafted apart from the rest is held as it was. -/
theorem Free.last (free : Free table grafts)
    (apart : grafts.Pairwise fun first second => Apart first.1 second.1)
    (member : graft ∈ grafts) : valueAt graft.1 (.table (run table grafts)) = some graft.2 := by
  obtain ⟨before, after, rfl⟩ := List.append_of_mem member
  obtain ⟨_, absent, later⟩ := free_append.mp free
  have near : ∀ other ∈ after, Apart other.1 graft.1 := by
    have own := (List.pairwise_append.mp apart).2.1
    exact fun other member => ((List.pairwise_cons.mp own).1 other member).symm
  have held := (valueAt_merge graft.2 absent).held []
  rw [List.append_nil] at held
  rw [run_append]
  exact (later.kept near).trans held

/-- Paths apart from each other are free where nothing is at any. -/
theorem free_of_apart (absent : ∀ graft ∈ grafts, valueAt graft.1 (.table table) = none)
    (apart : grafts.Pairwise fun first second => Apart first.1 second.1) : Free table grafts := by
  induction grafts generalizing table with
  | nil => trivial
  | cons graft grafts ih =>
      rw [List.pairwise_cons] at apart
      have first := absent graft List.mem_cons_self
      refine ⟨first, ih (fun other member => ?_) apart.2⟩
      rw [(valueAt_merge graft.2 first).apart other.1 (apart.1 other member)]
      exact absent other (List.mem_cons_of_mem _ member)

/-- A leaf is held under a path that was grafted. -/
theorem Free.leaf (free : Free table grafts) {leaf : TomlValue}
    (held : valueAt path (.table (run table grafts)) = some leaf)
    (scalar : ∀ entries, leaf ≠ .table entries) :
    (∃ graft ∈ grafts, graft.1 <+: path) ∨ valueAt path (.table table) = some leaf := by
  induction grafts generalizing table with
  | nil => exact .inr held
  | cons graft grafts ih =>
      obtain ⟨absent, free⟩ := free
      have grafted := valueAt_merge graft.2 absent
      rcases ih free held with ⟨other, member, begins⟩ | earlier
      · exact .inl ⟨other, List.mem_cons_of_mem _ member, begins⟩
      · by_cases begins : graft.1 <+: path
        · exact .inl ⟨graft, List.mem_cons_self, begins⟩
        · right
          rw [← grafted.apart path ⟨begins, fun above => ?_⟩]
          · exact earlier
          · obtain ⟨entries, same⟩ := grafted.above path above fun same =>
              begins (same ▸ List.prefix_refl _)
            exact scalar entries (Option.some.inj (earlier.symm.trans same))

/-- A key that no path has stands inside a value. -/
theorem Free.inside (free : Free table grafts) {key : String}
    (strange : ∀ graft ∈ grafts, key ∉ graft.1)
    (held : (valueAt (path ++ [key]) (.table (run table grafts))).isSome = true) :
    (∃ graft ∈ grafts, graft.1 <+: path) ∨
      (valueAt (path ++ [key]) (.table table)).isSome = true := by
  induction grafts generalizing table with
  | nil => exact .inr held
  | cons graft grafts ih =>
      obtain ⟨absent, free⟩ := free
      have grafted := valueAt_merge graft.2 absent
      rcases ih free (fun other member => strange other (List.mem_cons_of_mem _ member)) held with
        ⟨other, member, begins⟩ | earlier
      · exact .inl ⟨other, List.mem_cons_of_mem _ member, begins⟩
      · have own := strange graft List.mem_cons_self
        by_cases begins : graft.1 <+: path ++ [key]
        · rcases List.prefix_concat_iff.mp begins with same | within
          · rw [same] at own
            exact absurd (List.mem_append_right _ (List.mem_singleton.mpr rfl)) own
          · exact .inl ⟨graft, List.mem_cons_self, within⟩
        · right
          rw [← grafted.apart _ ⟨begins, fun above => own (above.subset ?_)⟩]
          · exact earlier
          · exact List.mem_append_right _ (List.mem_singleton.mpr rfl)

end Run

/-! ## Keys as they are named -/

/-- The parts of a text between two underscores. -/
def splitNested : List Char → List (List Char)
  | '_' :: '_' :: rest => [] :: splitNested rest
  | character :: rest => beforeFirst character (splitNested rest)
  | [] => [[]]

/-- A variable under the prefix: its name after it in lower case, and its text. -/
structure Entry where
  lowered : List Char
  text : String
  deriving DecidableEq

/-- The path that the name describes. -/
def Entry.path (entry : Entry) : List String := (splitNested entry.lowered).map String.ofList

/-- The key it is read as. -/
def Entry.key (entry : Entry) : Key := Key.of entry.lowered

theorem splitDots_ne_nil (text : List Char) : splitDots text ≠ [] := by
  cases text with
  | nil => exact List.cons_ne_nil _ _
  | cons character rest =>
      unfold splitDots
      split
      next => exact List.cons_ne_nil _ _
      next => cases splitDots rest <;> exact List.cons_ne_nil _ _

theorem beforeFirst_append {character : Char} {parts more : List (List Char)} (some : parts ≠ []) :
    beforeFirst character (parts ++ more) = beforeFirst character parts ++ more := by
  cases parts with
  | nil => exact absurd rfl some
  | cons first rest => rfl

theorem splitNested_ne_nil (text : List Char) : splitNested text ≠ [] := by
  fun_induction splitNested text with
  | case1 rest ih => exact List.cons_ne_nil _ _
  | case2 character rest _ ih => cases splitNested rest <;> exact List.cons_ne_nil _ _
  | case3 => exact List.cons_ne_nil _ _

/-- A key is read as what its parts are between dots. -/
theorem splitDots_replace (text : List Char) :
    splitDots (replaceSeparator text) = (splitNested text).flatMap splitDots := by
  fun_induction splitNested text with
  | case1 rest ih =>
      rw [replaceSeparator, splitDots, if_pos rfl, ih, List.flatMap_cons]
      rfl
  | case2 character rest plain ih =>
      have replaced : replaceSeparator (character :: rest) =
          character :: replaceSeparator rest := by
        rw [replaceSeparator]
        exact plain
      obtain ⟨first, more, parts⟩ := List.exists_cons_of_ne_nil (splitNested_ne_nil rest)
      rw [replaced, splitDots, ih, parts, beforeFirst, List.flatMap_cons, List.flatMap_cons,
        splitDots]
      split
      next => rfl
      next => exact beforeFirst_append (splitDots_ne_nil first)
  | case3 => rfl

theorem dotless_splitDots {text part : List Char} (member : part ∈ splitDots text) :
    '.' ∉ part := by
  induction text generalizing part with
  | nil =>
      rw [List.mem_singleton.mp member]
      exact List.not_mem_nil
  | cons character rest ih =>
      unfold splitDots at member
      split at member
      next =>
        rcases List.mem_cons.mp member with rfl | later
        · exact List.not_mem_nil
        · exact ih later
      next other =>
        obtain ⟨first, more, parts⟩ := List.exists_cons_of_ne_nil (splitDots_ne_nil rest)
        rw [parts] at member ih
        rcases List.mem_cons.mp member with rfl | later
        · rw [List.mem_cons, not_or]
          exact ⟨Ne.symm other, ih List.mem_cons_self⟩
        · exact ih (List.mem_cons_of_mem _ later)

theorem splitDots_dotless {text : List Char} (dotless : '.' ∉ text) : splitDots text = [text] := by
  induction text with
  | nil => rfl
  | cons character rest ih =>
      rw [List.mem_cons, not_or] at dotless
      rw [splitDots, if_neg (Ne.symm dotless.1), ih dotless.2]
      rfl

/-- A dot of a name is in one of its parts. -/
theorem dot_splitNested {text : List Char} :
    '.' ∈ text ↔ ∃ part ∈ splitNested text, '.' ∈ part := by
  fun_induction splitNested text with
  | case1 rest ih => simp [ih]
  | case2 character rest _ ih =>
      obtain ⟨first, more, parts⟩ := List.exists_cons_of_ne_nil (splitNested_ne_nil rest)
      rw [parts] at ih ⊢
      rw [beforeFirst, List.mem_cons, ih]
      simp only [List.mem_cons, exists_eq_or_imp]
      rw [or_assoc]
  | case3 => simp

theorem flatMap_dotless {parts : List (List Char)} (dotless : ∀ part ∈ parts, '.' ∉ part) :
    parts.flatMap splitDots = parts := by
  induction parts with
  | nil => rfl
  | cons first rest ih =>
      rw [List.flatMap_cons, splitDots_dotless (dotless first List.mem_cons_self),
        ih fun part member => dotless part (List.mem_cons_of_mem _ member)]
      rfl

section Key

variable {entry : Entry}

/-- A name without a dot is read as it is meant. -/
theorem Entry.key_path (dotless : '.' ∉ entry.lowered) : entry.key.path = entry.path := by
  show (splitDots (replaceSeparator entry.lowered)).map String.ofList = _
  rw [splitDots_replace, flatMap_dotless]
  · rfl
  · intro part member dot
    exact dotless (dot_splitNested.mpr ⟨part, member, dot⟩)

theorem Entry.dotless_key {segment : String} (member : segment ∈ entry.key.path) :
    '.' ∉ segment.toList := by
  obtain ⟨part, own, rfl⟩ := List.mem_map.mp member
  rw [String.toList_ofList]
  exact dotless_splitDots own

theorem Entry.key_nonempty : entry.key.path ≠ [] := by
  intro none
  exact splitDots_ne_nil _ (List.map_eq_nil_iff.mp none)

/-- A name with a dot is read as another path, which goes on from the parts before it. -/
theorem Entry.key_dotted (dotted : '.' ∈ entry.lowered) :
    ∃ front segment back more, entry.path = front ++ segment :: back ∧
      entry.key.path = front ++ more ∧ more ≠ [] ∧ '.' ∈ segment.toList := by
  obtain ⟨part, member, dot⟩ := dot_splitNested.mp dotted
  obtain ⟨front, back, whole⟩ : ∃ front back, splitNested entry.lowered = front ++ back ∧
      (∀ part ∈ front, '.' ∉ part) ∧ ∃ segment more, back = segment :: more ∧ '.' ∈ segment := by
    refine ⟨(splitNested entry.lowered).takeWhile fun part => !part.contains '.',
      (splitNested entry.lowered).dropWhile fun part => !part.contains '.',
      List.takeWhile_append_dropWhile.symm, fun part member => ?_, ?_⟩
    · have clean := List.all_eq_true.mp List.all_takeWhile part member
      simpa using clean
    · cases rest : (splitNested entry.lowered).dropWhile fun part => !part.contains '.' with
      | nil =>
          have clean := List.dropWhile_eq_nil_iff.mp rest part member
          simp [dot] at clean
      | cons segment more =>
          have stopped := List.head?_dropWhile_not (fun part => !part.contains '.')
            (splitNested entry.lowered)
          rw [rest] at stopped
          exact ⟨segment, more, rfl, by simpa using stopped⟩
  obtain ⟨whole, clean, segment, more, rfl, dot⟩ := whole
  refine ⟨front.map String.ofList, String.ofList segment, more.map String.ofList,
    ((segment :: more).flatMap splitDots).map String.ofList, ?_, ?_, ?_, ?_⟩
  · rw [Entry.path, whole, List.map_append, List.map_cons]
  · show (splitDots (replaceSeparator entry.lowered)).map String.ofList = _
    rw [splitDots_replace, whole, List.flatMap_append, flatMap_dotless clean, List.map_append]
  · rw [Ne, List.map_eq_nil_iff, List.flatMap_cons, List.append_eq_nil_iff]
    exact fun both => splitDots_ne_nil segment both.1
  · rwa [String.toList_ofList]

end Key

/-! ## Values as they are written -/

section Layer

variable (toml : Toml) (schema : Schema)

/-- **What a variable says**: the value that its text is, if that decodes, or its text. -/
def denoted (entry : Entry) : TomlValue :=
  match toml.value entry.text with
  | none => .string entry.text
  | some value => match decodeSingle schema entry.key value with
      | .ok () => value
      | .error _ => .string entry.text

/-- A text that is no value is not read as one: the document it makes has none, or one
that does not decode. -/
def Whole (entry : Entry) : Prop :=
  toml.value entry.text = none → ∀ scalar, parseScalar toml entry.text = some scalar →
    decodeSingle schema entry.key scalar ≠ .ok ()

variable {toml : Toml} {schema : Schema} {entry : Entry} {value : TomlValue}

theorem decodeVariable_ok
    (decoded : decodeVariable toml schema entry.key entry.text = .ok value) :
    (parseScalar toml entry.text = some value ∧ decodeSingle schema entry.key value = .ok ()) ∨
      (value = .string entry.text ∧ ∀ scalar, parseScalar toml entry.text = some scalar →
        decodeSingle schema entry.key scalar ≠ .ok ()) := by
  have text : ∀ error, firstDecoded schema entry.key error [.string entry.text] = .ok value →
      value = .string entry.text := by
    intro error last
    unfold firstDecoded at last
    split at last
    next =>
      cases last
      rfl
    next => cases last
  unfold decodeVariable at decoded
  cases parsed : parseScalar toml entry.text with
  | none =>
      rw [parsed] at decoded
      exact .inr ⟨text _ decoded, fun _ same => nomatch same⟩
  | some scalar =>
      rw [parsed] at decoded
      unfold firstDecoded at decoded
      simp only [Option.toList_some, List.singleton_append] at decoded
      split at decoded
      next fits =>
        cases decoded
        exact .inl ⟨rfl, fits⟩
      next error refused =>
        refine .inr ⟨text _ decoded, fun other same => ?_⟩
        cases same
        rw [refused]
        exact fun same => nomatch same

/-- A variable is read as what it says just where its text is read whole. -/
theorem decoded_iff (decoded : decodeVariable toml schema entry.key entry.text = .ok value) :
    value = denoted toml schema entry ↔ Whole toml schema entry := by
  unfold denoted Whole
  cases one : toml.value entry.text with
  | none =>
      simp only [true_implies]
      rcases decodeVariable_ok decoded with ⟨parsed, fits⟩ | ⟨same, refused⟩
      · constructor
        · rintro rfl
          obtain ⟨table, document, held⟩ := Option.bind_eq_some_iff.mp parsed
          exact absurd held (toml.quoted document)
        · intro refused
          exact absurd fits (refused value parsed)
      · exact ⟨fun _ => refused, fun _ => same⟩
  | some whole =>
      have parsed : parseScalar toml entry.text = some whole := by
        rw [parseScalar, toml.assigned one, Option.bind_some]
        exact List.lookup_cons_self ..
      refine iff_of_true ?_ fun none => nomatch none
      rcases decodeVariable_ok decoded with ⟨own, fits⟩ | ⟨same, refused⟩
      · cases parsed.symm.trans own
        simp only [fits]
      · have other := refused whole parsed
        dsimp only
        split
        next fits => exact absurd fits other
        next => exact same

theorem denoted_or_text
    (decoded : decodeVariable toml schema entry.key entry.text = .ok value) :
    value = denoted toml schema entry ∨ denoted toml schema entry = .string entry.text := by
  by_cases whole : Whole toml schema entry
  · exact .inl ((decoded_iff decoded).mpr whole)
  · right
    have none : toml.value entry.text = none := by
      cases one : toml.value entry.text with
      | none => rfl
      | some value => exact absurd (fun none => nomatch one.symm.trans none) whole
    rw [denoted, none]

/-! ## The layer -/

variable (lower : List Char → List Char) (leading : String)

/-- The entry of a variable, if it is under the prefix. -/
def entryOf (named : String × String) : Option Entry :=
  (stripLeading leading.toList named.1.toList).bind fun remainder =>
    if remainder.isEmpty then none else some ⟨lower remainder, named.2⟩

/-- The variables under the prefix. -/
def entries (environment : List (String × String)) : List Entry :=
  environment.filterMap (entryOf lower leading)

variable (toml schema)

/-- No variable is grafted where something stands. -/
def Undisturbed : TomlTable → List (String × String) → Prop
  | _, [] => True
  | table, named :: rest =>
      (∀ entry, entryOf lower leading named = some entry →
        valueAt entry.key.path (.table table) = none) ∧
      ∀ next, readVariable toml schema lower leading table named = .ok next →
        Undisturbed next rest

/-- **A layer that holds what its variables say**, has no other leaf, and was built
without overwriting. -/
structure Faithful (environment : List (String × String)) (layer : TomlTable) : Prop where
  held : ∀ entry ∈ entries lower leading environment,
    valueAt entry.path (.table layer) = some (denoted toml schema entry)
  only : ∀ path leaf, valueAt path (.table layer) = some leaf →
    (∀ table, leaf ≠ .table table) →
      ∃ entry ∈ entries lower leading environment, entry.path <+: path
  undisturbed : Undisturbed toml schema lower leading [] environment

/-- **Variables that are read as they stand**: each text whole, no name with a dot, no key
that is another's or is below it. -/
structure Separate (environment : List (String × String)) : Prop where
  whole : ∀ entry ∈ entries lower leading environment, Whole toml schema entry
  dotless : ∀ entry ∈ entries lower leading environment, '.' ∉ entry.lowered
  apart : (entries lower leading environment).Pairwise fun first second =>
    Apart first.path second.path

variable {toml schema lower leading}

theorem readVariable_ok {table after : TomlTable} {named : String × String}
    (read : readVariable toml schema lower leading table named = .ok after) :
    (entryOf lower leading named = none ∧ after = table) ∨
      ∃ entry value, entryOf lower leading named = some entry ∧
        decodeVariable toml schema entry.key entry.text = .ok value ∧
        after = mergeInto table entry.key.path value := by
  unfold readVariable at read
  unfold entryOf
  cases found : stripLeading leading.toList named.1.toList with
  | none =>
      rw [found] at read
      cases read
      exact .inl ⟨rfl, rfl⟩
  | some remainder =>
      rw [found] at read
      simp only [Option.bind_some] at read ⊢
      split at read
      next empty =>
        cases read
        rw [if_pos empty]
        exact .inl ⟨rfl, rfl⟩
      next some =>
        rw [if_neg some]
        split at read
        next => cases read
        next =>
          cases decoded : decodeVariable toml schema (Key.of (lower remainder)) named.2 with
          | error error =>
              rw [decoded] at read
              cases read
          | ok value =>
              rw [decoded] at read
              cases read
              exact .inr ⟨⟨lower remainder, named.2⟩, value, rfl, decoded, rfl⟩

/-- An entry with the value it was read as. -/
structure Item (toml : Toml) (schema : Schema) where
  entry : Entry
  value : TomlValue
  decoded : decodeVariable toml schema entry.key entry.text = .ok value

def Item.graft (item : Item toml schema) : Graft := (item.entry.key.path, item.value)

/-- A layer is its entries, grafted in turn. -/
theorem readEnvironment_ok {environment : List (String × String)} {table layer : TomlTable}
    (read : environment.foldlM (readVariable toml schema lower leading) table = .ok layer) :
    ∃ items : List (Item toml schema), items.map Item.entry = entries lower leading environment ∧
      layer = run table (items.map Item.graft) ∧
      (Undisturbed toml schema lower leading table environment ↔
        Free table (items.map Item.graft)) := by
  induction environment generalizing table with
  | nil =>
      cases read
      exact ⟨[], rfl, rfl, Iff.rfl⟩
  | cons named rest ih =>
      rw [List.foldlM_cons] at read
      cases first : readVariable toml schema lower leading table named with
      | error error =>
          rw [first] at read
          cases read
      | ok next =>
          rw [first] at read
          obtain ⟨items, same, whole, disturbed⟩ := ih read
          have later : (∀ after, readVariable toml schema lower leading table named = .ok after →
              Undisturbed toml schema lower leading after rest) ↔
              Free next (items.map Item.graft) := by
            rw [first, ← disturbed]
            exact ⟨fun all => all next rfl, fun own after same => Except.ok.inj same ▸ own⟩
          rcases readVariable_ok first with ⟨none, rfl⟩ | ⟨entry, value, found, decoded, rfl⟩
          · refine ⟨items, ?_, whole, ?_⟩
            · rw [entries, List.filterMap_cons_none none]
              exact same
            · rw [Undisturbed, later, none]
              exact ⟨fun both => both.2, fun free => ⟨fun _ same => (nomatch same), free⟩⟩
          · refine ⟨⟨entry, value, decoded⟩ :: items, ?_, whole, ?_⟩
            · rw [entries, List.filterMap_cons_some found, List.map_cons, same]
              rfl
            · rw [Undisturbed, later, found, List.map_cons, Free]
              refine and_congr_left fun _ => ⟨fun all => all entry rfl, fun own other same => ?_⟩
              cases same
              exact own

section Items

variable {items : List (Item toml schema)} {environment : List (String × String)}
  {layer : TomlTable}

/-- Entries that stand apart are grafted where nothing is, and kept. -/
theorem faithful_of_separate (same : items.map Item.entry = entries lower leading environment)
    (whole : layer = run [] (items.map Item.graft))
    (disturbed : Undisturbed toml schema lower leading [] environment ↔
      Free [] (items.map Item.graft))
    (separate : Separate toml schema lower leading environment) :
    Faithful toml schema lower leading environment layer := by
  have mine : ∀ item ∈ items, item.entry ∈ entries lower leading environment := by
    intro item member
    rw [← same]
    exact List.mem_map_of_mem member
  have paths : ∀ item ∈ items, item.entry.key.path = item.entry.path :=
    fun item member => Entry.key_path (separate.dotless _ (mine item member))
  have apart : (items.map Item.graft).Pairwise fun first second => Apart first.1 second.1 := by
    have named := separate.apart
    rw [← same, List.pairwise_map] at named
    rw [List.pairwise_map]
    refine named.imp_of_mem fun {first second} member member' apart => ?_
    show Apart first.entry.key.path second.entry.key.path
    rw [paths first member, paths second member']
    exact apart
  have free : Free [] (items.map Item.graft) := by
    refine free_of_apart (fun graft member => ?_) apart
    obtain ⟨item, _, rfl⟩ := List.mem_map.mp member
    exact valueAt_nothing Entry.key_nonempty
  refine ⟨fun entry member => ?_, fun path leaf held scalar => ?_, disturbed.mpr free⟩
  · rw [← same] at member
    obtain ⟨item, own, rfl⟩ := List.mem_map.mp member
    rw [whole, ← paths item own, ← (decoded_iff item.decoded).mpr (separate.whole _ (mine item own))]
    exact free.last apart (List.mem_map_of_mem own)
  · rw [whole] at held
    rcases free.leaf held scalar with ⟨graft, member, begins⟩ | none
    · obtain ⟨item, own, rfl⟩ := List.mem_map.mp member
      refine ⟨item.entry, mine item own, ?_⟩
      rw [← paths item own]
      exact begins
    · cases path with
      | nil =>
          cases none
          exact absurd rfl (scalar [])
      | cons key rest => cases none

/-- In a layer that holds what its entries say, an entry's name has no dot and no other
entry is below it. -/
theorem alone_of_faithful (same : items.map Item.entry = entries lower leading environment)
    (whole : layer = run [] (items.map Item.graft)) (free : Free [] (items.map Item.graft))
    (held : ∀ entry ∈ entries lower leading environment,
      valueAt entry.path (.table layer) = some (denoted toml schema entry))
    {before after : List (Item toml schema)} {item : Item toml schema}
    (parts : items = before ++ item :: after) :
    '.' ∉ item.entry.lowered ∧
      ∀ other ∈ before ++ after, ¬item.entry.key.path <+: other.entry.key.path := by
  induction size : item.entry.key.path.length using Nat.strong_induction_on
    generalizing before after item with
  | _ size ih =>
      have mine : item.entry ∈ entries lower leading environment := by
        rw [← same, parts]
        exact List.mem_map_of_mem (List.mem_append_right _ List.mem_cons_self)
      have dotless : '.' ∉ item.entry.lowered := by
        intro dotted
        obtain ⟨front, segment, back, more, path, key, some, dot⟩ := Entry.key_dotted dotted
        have reached := held item.entry mine
        rw [path, ← List.singleton_append, ← List.append_assoc] at reached
        have inside : (valueAt (front ++ [segment]) (.table (run [] (items.map Item.graft)))).isSome =
            true := by
          refine some_of_longer back ?_
          rw [← whole, reached]
          rfl
        have strange : ∀ graft ∈ items.map Item.graft, segment ∉ graft.1 := by
          intro graft member own
          obtain ⟨other, _, rfl⟩ := List.mem_map.mp member
          exact Entry.dotless_key own dot
        rcases free.inside strange inside with ⟨graft, member, begins⟩ | none
        · obtain ⟨other, own, rfl⟩ := List.mem_map.mp member
          obtain ⟨before', after', parts'⟩ := List.append_of_mem own
          have begins : other.entry.key.path <+: front := begins
          have shorter := begins.length_le
          have longer := List.length_pos_iff.mpr some
          have total := congrArg List.length key
          rw [List.length_append] at total
          have alone := (ih _ (by omega) parts' rfl).2
          have elsewhere : item ∈ before' ++ after' := by
            have member : item ∈ before' ++ other :: after' := by
              rw [← parts', parts]
              exact List.mem_append_right _ List.mem_cons_self
            rcases List.mem_append.mp member with early | late
            · exact List.mem_append_left _ early
            · rcases List.mem_cons.mp late with rfl | late
              · omega
              · exact List.mem_append_right _ late
          refine alone item elsewhere (begins.trans ?_)
          rw [key]
          exact List.prefix_append front more
        · rw [valueAt_nothing (by simp)] at none
          cases none
      refine ⟨dotless, fun other member below => ?_⟩
      have reached := held item.entry mine
      rw [← Entry.key_path dotless, whole] at reached
      rw [parts, List.map_append, List.map_cons] at free reached
      obtain ⟨early, absent, later⟩ := free_append.mp free
      obtain ⟨rest, path⟩ := below
      have path : item.graft.1 ++ rest = other.graft.1 := path
      rcases List.mem_append.mp member with earlier | later'
      · -- an entry that was grafted below stands there, so nothing is grafted above it
        have grafted := early.grafted (List.mem_map_of_mem earlier)
        have above : (valueAt item.graft.1
            (.table (run [] (before.map Item.graft)))).isSome = true := by
          refine some_of_longer rest ?_
          rw [path]
          exact grafted
        rw [absent] at above
        cases above
      · -- an entry that is grafted below later is no part of what the entry says
        have grafted : Grafted _ item.graft.1 item.graft.2 _ := valueAt_merge _ absent
        have member : other.graft ∈ after.map Item.graft := List.mem_map_of_mem later'
        have outside : valueAt rest item.value = none := by
          refine (grafted.held rest).symm.trans ?_
          rw [path, Option.eq_none_iff_forall_not_mem]
          intro value held
          have stands := Option.isSome_iff_exists.mpr ⟨value, held⟩
          exact (later.held stands).2 _ member (List.prefix_refl _)
        rw [run_append] at reached
        have reached : valueAt item.graft.1 (.table (run (mergeInto (run []
            (before.map Item.graft)) item.graft.1 item.graft.2) (after.map Item.graft))) =
              some (denoted toml schema item.entry) := reached
        have last := later.grafted member
        rw [← path, valueAt_append, reached, Option.bind_some] at last
        rcases denoted_or_text item.decoded with whole | text
        · rw [← whole, outside] at last
          cases last
        · cases rest with
          | nil => cases outside
          | cons key rest =>
              rw [text] at last
              cases last

/-- Entries that are held as they say, without overwriting, stand apart. -/
theorem separate_of_faithful (same : items.map Item.entry = entries lower leading environment)
    (whole : layer = run [] (items.map Item.graft))
    (disturbed : Undisturbed toml schema lower leading [] environment ↔
      Free [] (items.map Item.graft))
    (faithful : Faithful toml schema lower leading environment layer) :
    Separate toml schema lower leading environment := by
  have free := disturbed.mp faithful.undisturbed
  have alone {before after : List (Item toml schema)} {item : Item toml schema}
      (parts : items = before ++ item :: after) :=
    alone_of_faithful same whole free faithful.held parts
  have dotless : ∀ item ∈ items, '.' ∉ item.entry.lowered := by
    intro item member
    obtain ⟨before, after, parts⟩ := List.append_of_mem member
    exact (alone parts).1
  have apart : items.Pairwise fun first second =>
      Apart first.entry.key.path second.entry.key.path := by
    refine pairwise_of_parts fun before first between second after parts => ⟨?_, ?_⟩
    · refine (alone parts).2 second (List.mem_append_right _ ?_)
      exact List.mem_append_right _ List.mem_cons_self
    · have parts : items = (before ++ first :: between) ++ second :: after := by
        rw [parts, List.append_assoc, List.cons_append]
      refine (alone parts).2 first (List.mem_append_left _ ?_)
      exact List.mem_append_right _ List.mem_cons_self
  refine ⟨fun entry member => ?_, fun entry member => ?_, ?_⟩
  · rw [← same] at member
    obtain ⟨item, own, rfl⟩ := List.mem_map.mp member
    refine (decoded_iff item.decoded).mp (Option.some.inj ?_)
    rw [← faithful.held item.entry (same ▸ List.mem_map_of_mem own), ← Entry.key_path
      (dotless item own), whole]
    exact (free.last (List.pairwise_map.mpr apart) (List.mem_map_of_mem own)).symm
  · rw [← same] at member
    obtain ⟨item, own, rfl⟩ := List.mem_map.mp member
    exact dotless item own
  · rw [← same, List.pairwise_map]
    refine apart.imp_of_mem fun {first second} member member' apart => ?_
    rw [← Entry.key_path (dotless first member), ← Entry.key_path (dotless second member')]
    exact apart

end Items

end Layer

/-- **What the environment layer holds.** A layer that is read holds what its variables say,
with no other leaf and nothing overwritten, just where each text is read whole, no name has
a dot and no key is another's or below it. -/
theorem environment_layer (toml : Toml) (schema : Schema) (lower : List Char → List Char)
    (leading : String) (environment : List (String × String)) {layer : TomlTable}
    (read : readEnvironment toml schema lower leading environment = .ok layer) :
    Faithful toml schema lower leading environment layer ↔
      Separate toml schema lower leading environment := by
  obtain ⟨items, same, whole, disturbed⟩ := readEnvironment_ok read
  exact ⟨separate_of_faithful same whole disturbed, faithful_of_separate same whole disturbed⟩

/-! ## A port in the environment -/

/-- A document with a port, or with a port and a comment. -/
def portDocument (text : String) : Option TomlTable :=
  if text = "value = 8080" ∨ text = "value = 8080 # port" then some [("value", .integer 8080)]
  else none

def portValue (text : String) : Option TomlValue :=
  if text = "8080" then some (.integer 8080) else none

/-- The format, on the texts of a port. -/
def portFormat : Toml where
  document := portDocument
  value := portValue
  assigned {text held} parsed := by
    unfold portValue at parsed
    split at parsed
    next same =>
      cases parsed
      rw [same]
      exact if_pos (.inl (by decide +kernel))
    next => cases parsed
  quoted {text table} parsed := by
    unfold portDocument at parsed
    split at parsed
    next =>
      cases parsed
      exact fun same => nomatch same
    next => cases parsed

/-- A configuration with a port, which may be a text. -/
def portSchema : Schema
  | [("port", .integer _)] => .ok ()
  | [("port", .string _)] => .ok ()
  | _ => .error "expected a port"

theorem key_port : Key.of ("PORT".toList.map Char.toLower) = ⟨"port", ["port"]⟩ := by
  decide +kernel

theorem port_read {text : String}
    (parsed : parseScalar portFormat text = some (.integer 8080)) :
    readEnvironment portFormat portSchema (List.map Char.toLower) "RENVOR_"
      [("RENVOR_PORT", text)] = .ok [("port", .integer 8080)] := by
  have strip : stripLeading "RENVOR_".toList "RENVOR_PORT".toList = some "PORT".toList := by
    decide +kernel
  have decoded : decodeVariable portFormat portSchema ⟨"port", ["port"]⟩ text =
      .ok (.integer 8080) := by
    rw [decodeVariable, parsed]
    rfl
  have read : readVariable portFormat portSchema (List.map Char.toLower) "RENVOR_" []
      ("RENVOR_PORT", text) = .ok [("port", .integer 8080)] := by
    rw [readVariable, strip]
    dsimp only
    rw [if_neg (by decide +kernel), key_port, decoded]
    rfl
  rw [readEnvironment, List.foldlM_cons, read]
  rfl

theorem scalar_port : parseScalar portFormat "8080" = some (.integer 8080) := by
  have document : portDocument ("value = " ++ "8080") =
      some [("value", .integer 8080)] :=
    if_pos (.inl (by decide +kernel))
  rw [parseScalar, show portFormat.document = portDocument from rfl, document, Option.bind_some]
  exact List.lookup_cons_self ..

theorem scalar_commented : parseScalar portFormat "8080 # port" = some (.integer 8080) := by
  have document : portDocument ("value = " ++ "8080 # port") =
      some [("value", .integer 8080)] :=
    if_pos (.inr (by decide +kernel))
  rw [parseScalar, show portFormat.document = portDocument from rfl, document, Option.bind_some]
  exact List.lookup_cons_self ..

/-- A port that is one value is held. -/
theorem environment_layer_port :
    Faithful portFormat portSchema (List.map Char.toLower) "RENVOR_" [("RENVOR_PORT", "8080")]
        [("port", .integer 8080)] ↔
      Separate portFormat portSchema (List.map Char.toLower) "RENVOR_"
        [("RENVOR_PORT", "8080")] :=
  environment_layer portFormat portSchema (List.map Char.toLower) "RENVOR_" _
    (port_read scalar_port)

/-- A comment after a port is dropped. -/
theorem environment_drops :
    readEnvironment portFormat portSchema (List.map Char.toLower) "RENVOR_"
        [("RENVOR_PORT", "8080 # port")] = .ok [("port", .integer 8080)] ∧
      ¬Faithful portFormat portSchema (List.map Char.toLower) "RENVOR_"
        [("RENVOR_PORT", "8080 # port")] [("port", .integer 8080)] := by
  refine ⟨port_read scalar_commented, fun faithful => ?_⟩
  have member : (⟨"port".toList, "8080 # port"⟩ : Entry) ∈
      entries (List.map Char.toLower) "RENVOR_" [("RENVOR_PORT", "8080 # port")] := by
    decide +kernel
  have path : Entry.path ⟨"port".toList, "8080 # port"⟩ = ["port"] := by
    decide +kernel
  have said : denoted portFormat portSchema ⟨"port".toList, "8080 # port"⟩ =
      .string "8080 # port" := by
    have none : portValue "8080 # port" = none := if_neg (by decide +kernel)
    rw [denoted, show portFormat.value = portValue from rfl, none]
  have held := faithful.held _ member
  rw [path, said] at held
  cases held

end Renvor.Environment
