import Mathlib.Data.List.Infix
import Renvor.Config.Decode
import Renvor.Config.EnvironmentLayer
import Renvor.Config.MergeResult

/-! # The key that a failure names

A source is accepted just where no value of it is too deep and it decodes. A failure names a
smallest part that fails, whatever is declared, just where no key of the source has a dot
and no table stands under the empty key (`Renvor.Decode.decode_source_iff`).
-/

namespace Renvor.Decode

open Environment

/-! ## Depth -/

theorem lt_depthEntries {level : Nat} {entries : TomlTable} :
    level < depthEntries entries ↔ ∃ entry ∈ entries, level < depth entry.2 := by
  induction entries with
  | nil => simp [depthEntries]
  | cons entry rest ih =>
      obtain ⟨key, value⟩ := entry
      simp [depthEntries, depthEntry, ih]

theorem lt_depthItems {level : Nat} {items : List TomlValue} :
    level < depthItems items ↔ ∃ item ∈ items, level < depth item := by
  induction items with
  | nil => simp [depthItems]
  | cons item rest ih => simp [depthItems, ih]

theorem depth_pos (value : TomlValue) : 0 < depth value := by
  cases value <;> simp [depth]

/-- A value past a level is too deep just where one right inside it is. -/
theorem inside_deep {ceiling level : Nat} (shallow : ¬ceiling < level) (value : TomlValue) :
    (∃ item ∈ inside level value, ceiling + 1 < item.2 + depth item.1) ↔
      ceiling + 1 < level + depth value := by
  cases value with
  | table entries =>
      have deep := @lt_depthEntries (ceiling - level) entries
      simp only [inside, List.mem_map, exists_exists_and_eq_and, depth]
      constructor
      · rintro ⟨entry, member, past⟩
        have := deep.mpr ⟨entry, member, by omega⟩
        omega
      · intro past
        obtain ⟨entry, member, past⟩ := deep.mp (by omega)
        exact ⟨entry, member, by omega⟩
  | array items =>
      have deep := @lt_depthItems (ceiling - level) items
      simp only [inside, List.mem_map, exists_exists_and_eq_and, depth]
      constructor
      · rintro ⟨item, member, past⟩
        have := deep.mpr ⟨item, member, by omega⟩
        omega
      · intro past
        obtain ⟨item, member, past⟩ := deep.mp (by omega)
        exact ⟨item, member, by omega⟩
  | string | integer | float | boolean | datetime =>
      simp only [inside, List.not_mem_nil, false_and, exists_false, depth, false_iff]
      omega

theorem exceedsFrom_iff {ceiling : Nat} {pending : List (TomlValue × Nat)} :
    exceedsFrom ceiling pending = true ↔
      ∃ item ∈ pending, ceiling + 1 < item.2 + depth item.1 := by
  fun_induction exceedsFrom ceiling pending with
  | case1 => simp
  | case2 value level rest past =>
      refine iff_of_true rfl ⟨(value, level), List.mem_cons_self, ?_⟩
      have := depth_pos value
      dsimp only
      omega
  | case3 value level rest shallow ih =>
      rw [ih]
      simp only [List.mem_append, List.mem_reverse, or_and_right, exists_or, List.mem_cons,
        exists_eq_left, inside_deep shallow]

/-- **The walk finds just the values that nest too deep.** -/
theorem exceedsDepth_iff {value : TomlValue} {ceiling : Nat} :
    exceedsDepth value ceiling = true ↔ ceiling < depth value := by
  rw [exceedsDepth, exceedsFrom_iff]
  simp only [List.mem_singleton, exists_eq_left]
  omega

/-! ## Dotted paths -/

/-- A key path, dotted. -/
def dottedPath : List String → String
  | [] => ""
  | [key] => key
  | key :: rest => key ++ "." ++ dottedPath rest

theorem dottedPath_cons (key : String) {rest : List String} (nonempty : rest ≠ []) :
    dottedPath (key :: rest) = key ++ "." ++ dottedPath rest := by
  obtain ⟨second, more, rfl⟩ := List.exists_cons_of_ne_nil nonempty
  rfl

theorem splitDots_append (front back : List Char) :
    splitDots (front ++ '.' :: back) = splitDots front ++ splitDots back := by
  induction front with
  | nil => rfl
  | cons character rest ih =>
      rw [List.cons_append, splitDots, splitDots, ih]
      split
      next => rfl
      next => exact beforeFirst_append (splitDots_ne_nil rest)

theorem segments_dot (front back : String) :
    segments (front ++ "." ++ back) = segments front ++ segments back := by
  have dot : ".".toList = ['.'] := by decide
  rw [segments, String.toList_append, String.toList_append, dot, List.append_assoc,
    List.singleton_append, splitDots_append, List.map_append]
  rfl

theorem segments_ne_nil (key : String) : segments key ≠ [] := by
  rw [segments, Ne, List.map_eq_nil_iff]
  exact splitDots_ne_nil _

theorem segments_dotless {key : String} (dotless : '.' ∉ key.toList) : segments key = [key] := by
  rw [segments, splitDots_dotless dotless]
  exact congrArg (fun text => [text]) String.ofList_toList

theorem dotless_segments {key segment : String} (member : segment ∈ segments key) :
    '.' ∉ segment.toList := by
  obtain ⟨part, own, rfl⟩ := List.mem_map.mp member
  rw [String.toList_ofList]
  exact dotless_splitDots own

/-- A dotted path is read as the segments of its keys. -/
theorem segments_dottedPath {path : List String} (nonempty : path ≠ []) :
    segments (dottedPath path) = path.flatMap segments := by
  induction path with
  | nil => exact absurd rfl nonempty
  | cons key rest ih =>
      by_cases last : rest = []
      · subst last
        exact (List.append_nil _).symm
      · rw [dottedPath_cons key last, segments_dot, ih last, List.flatMap_cons]

theorem segments_plain {path : List String} (nonempty : path ≠ [])
    (dotless : ∀ key ∈ path, '.' ∉ key.toList) : segments (dottedPath path) = path := by
  rw [segments_dottedPath nonempty]
  clear nonempty
  induction path with
  | nil => rfl
  | cons key rest ih =>
      rw [List.flatMap_cons, segments_dotless (dotless key List.mem_cons_self),
        ih fun key member => dotless key (List.mem_cons_of_mem _ member)]
      rfl

theorem length_segments {path : List String} (nonempty : path ≠ []) :
    path.length ≤ (segments (dottedPath path)).length := by
  rw [segments_dottedPath nonempty]
  clear nonempty
  induction path with
  | nil => exact Nat.zero_le _
  | cons key rest ih =>
      have some := List.length_pos_iff.mpr (segments_ne_nil key)
      rw [List.flatMap_cons, List.length_append, List.length_cons]
      omega

theorem dottedPath_concat {path : List String} (nonempty : path ≠ []) (key : String) :
    dottedPath (path ++ [key]) = dottedPath path ++ "." ++ key := by
  induction path with
  | nil => exact absurd rfl nonempty
  | cons first rest ih =>
      by_cases last : rest = []
      · subst last
        rfl
      · rw [List.cons_append, dottedPath_cons first (by simp), ih last, dottedPath_cons first last]
        simp only [String.append_assoc]

/-- A path that is not at the root and has a name goes on with a dot. -/
theorem dottedBelow_path {path : List String} (named : path = [] ∨ dottedPath path ≠ "")
    (key : String) : dottedBelow (dottedPath path) key = dottedPath (path ++ [key]) := by
  unfold dottedBelow
  rcases named with rfl | named
  · rfl
  · have nonempty : path ≠ [] := by
      rintro rfl
      exact named rfl
    rw [if_neg, dottedPath_concat nonempty]
    rwa [String.isEmpty_iff]

/-! ## What decodes in parts -/

/-- **A schema that decodes in parts**: an empty source fits, and a table fits just where
each of its entries does, alone and at its own position. -/
structure Piecewise (schema : Schema) : Prop where
  empty : schema [] = .ok ()
  root : ∀ table, schema table = .ok () ↔ ∀ entry ∈ table, schema [entry] = .ok ()
  below : ∀ path entries, path ≠ [] → entries ≠ [] → (schema (nest path (.table entries)) = .ok () ↔
    ∀ entry ∈ entries, schema (nest (path ++ [entry.1]) entry.2) = .ok ())

theorem forM_ok {α : Type} {items : List α} {judge : α → Except String Unit} :
    items.forM judge = .ok () ↔ ∀ item ∈ items, judge item = .ok () := by
  induction items with
  | nil => exact iff_of_true rfl fun _ member => nomatch member
  | cons item rest ih =>
      rw [List.forall_mem_cons, ← ih]
      show (judge item >>= fun _ => rest.forM judge) = .ok () ↔ _
      cases judge item with
      | ok => exact ⟨fun all => ⟨rfl, all⟩, fun both => both.2⟩
      | error report => exact ⟨fun all => (nomatch all), fun both => (nomatch both.1)⟩

theorem nest_cons (key : String) {rest : List String} (nonempty : rest ≠ []) (value : TomlValue) :
    nest (key :: rest) value = [(key, .table (nest rest value))] := by
  obtain ⟨second, more, rfl⟩ := List.exists_cons_of_ne_nil nonempty
  rfl

/-- A shape that no value has. -/
def never : Shape := .scalar fun _ => .error "not declared"

theorem never_decode (value : TomlValue) : never.decode value ≠ .ok () := by
  unfold never Shape.decode
  split <;> exact fun same => nomatch same

namespace Shape

/-- A shape decodes a table in parts, if it has any. -/
theorem decode_parts : ∀ (shape : Shape) {entries : TomlTable}, entries ≠ [] →
    (shape.decode (.table entries) = .ok () ↔
      ∀ entry ∈ entries, shape.decode (.table [entry]) = .ok ())
  | .anything, _, _ => iff_of_true rfl fun _ _ => rfl
  | .scalar _, entries, filled => by
      obtain ⟨entry, rest, rfl⟩ := List.exists_cons_of_ne_nil filled
      exact iff_of_false (fun same => nomatch same) fun all =>
        nomatch all entry List.mem_cons_self
  | .either _ tables, _, filled => decode_parts tables filled
  | .map values, entries, _ => by
      unfold Shape.decode
      simp only [forM_ok, List.mem_singleton, forall_eq]
  | .structure fields closed, entries, _ => by
      unfold Shape.decode
      simp only [forM_ok, List.mem_singleton, forall_eq]

theorem field_inner (fields : List (String × Shape)) (closed : Bool) (key : String) :
    ∃ inner : Shape, ∀ value, decodeField fields closed (key, value) = .ok () ↔
      inner.decode value = .ok () := by
  induction fields with
  | nil =>
      cases closed with
      | true => exact ⟨never, fun value => iff_of_false (fun same => nomatch same)
          (never_decode value)⟩
      | false => exact ⟨.anything, fun _ => iff_of_true rfl rfl⟩
  | cons field rest ih =>
      obtain ⟨name, shape⟩ := field
      by_cases same : name = key
      · refine ⟨shape, fun value => ?_⟩
        rw [decodeField, if_pos same, decodeNamed]
      · obtain ⟨inner, all⟩ := ih
        refine ⟨inner, fun value => ?_⟩
        rw [decodeField, if_neg same]
        exact all value

/-- What is under a key of a table is decoded as a shape of its own. -/
theorem exists_inner : ∀ (shape : Shape) (key : String), ∃ inner : Shape, ∀ value,
    shape.decode (.table [(key, value)]) = .ok () ↔ inner.decode value = .ok ()
  | .anything, _ => ⟨.anything, fun _ => iff_of_true rfl rfl⟩
  | .scalar _, _ => ⟨never, fun value => iff_of_false (fun same => nomatch same)
      (never_decode value)⟩
  | .either _ tables, key => exists_inner tables key
  | .map values, key => ⟨values, fun value => by
      rw [Shape.decode]
      simp only [forM_ok, List.mem_singleton, forall_eq]⟩
  | .structure fields closed, key => by
      obtain ⟨inner, all⟩ := field_inner fields closed key
      refine ⟨inner, fun value => ?_⟩
      rw [Shape.decode]
      simp only [forM_ok, List.mem_singleton, forall_eq]
      exact all value

theorem decode_below (shape : Shape) {path : List String} {entries : TomlTable}
    (nonempty : path ≠ []) (some : entries ≠ []) :
    shape.decode (.table (nest path (.table entries))) = .ok () ↔
      ∀ entry ∈ entries, shape.decode (.table (nest (path ++ [entry.1]) entry.2)) = .ok () := by
  induction path generalizing shape with
  | nil => exact absurd rfl nonempty
  | cons key rest ih =>
      obtain ⟨inner, all⟩ := exists_inner shape key
      by_cases last : rest = []
      · subst last
        have parts := decode_parts inner some
        rw [← all] at parts
        refine parts.trans (forall₂_congr fun entry _ => ?_)
        rw [← all]
        rfl
      · rw [nest_cons key last, all, ih inner last]
        refine forall₂_congr fun entry _ => ?_
        rw [List.cons_append, nest_cons key (by simp), all]

end Shape

/-- **What is declared decodes in parts.** -/
theorem Declared.piecewise (declared : Declared) : Piecewise declared.schema where
  empty := declared.empty
  root table := by
    by_cases some : table = []
    · subst some
      exact iff_of_true declared.empty fun _ member => nomatch member
    · exact declared.shape.decode_parts some
  below _ _ nonempty some := declared.shape.decode_below nonempty some

/-- A value does not decode, alone and at its own position. -/
def Fails (schema : Schema) (path : List String) (value : TomlValue) : Prop :=
  schema (nest path value) ≠ .ok ()

/-- A node of a value, below it. -/
def Below (value : TomlValue) (path : List String) (held : TomlValue) : Prop :=
  (path, held) ∈ settingsBelow value

section Piecewise

variable {schema : Schema} {path : List String}

/-- Below what decodes, everything decodes. -/
theorem Piecewise.all_below (pieces : Piecewise schema) {inner : TomlTable} (nonempty : path ≠ [])
    (all : ∀ entry ∈ inner, schema (nest (path ++ [entry.1]) entry.2) = .ok ())
    {more : List String} {value : TomlValue} (node : (more, value) ∈ settings inner) :
    schema (nest (path ++ more) value) = .ok () := by
  induction more generalizing path inner with
  | nil => exact absurd rfl (settings_ne_nil inner _ node)
  | cons key rest ih =>
      obtain ⟨first, held, member, here⟩ := mem_settings.mp node
      have own := all _ member
      rcases here with same | ⟨below, rfl, ⟨deeper, value⟩, within, same⟩
      · cases same
        exact own
      · cases same
        have some : below ≠ [] := by
          rintro rfl
          cases within
        have next := (pieces.below (path ++ [key]) below (by simp) some).mp own
        have last := ih (by simp) next within
        rwa [List.append_assoc, List.singleton_append] at last

end Piecewise

/-! ## A shape that refuses one node -/

/-- A shape that refuses what holds a node at a path. -/
def forbid : List String → Shape
  | [] => never
  | [key] => .structure [(key, never)] false
  | key :: rest => .structure [(key, .either (fun _ => .ok ()) (forbid rest))] false

theorem forbid_empty {path : List String} (nonempty : path ≠ []) :
    (forbid path).decode (.table []) = .ok () := by
  match path, nonempty with
  | [key], _ => rfl
  | key :: second :: rest, _ => rfl

theorem decodeField_one {key : String} {shape : Shape} {entry : String × TomlValue} :
    decodeField [(key, shape)] false entry = .ok () ↔
      (key = entry.1 → shape.decode entry.2 = .ok ()) := by
  rw [decodeField]
  split
  next same => exact ⟨fun decodes _ => decodes, fun decodes => decodes same⟩
  next other => exact iff_of_true rfl fun same => absurd same other

/-- A table is refused just where it holds the node. -/
theorem forbid_iff {path : List String} (nonempty : path ≠ []) {table : TomlTable} :
    (forbid path).decode (.table table) = .ok () ↔ ∀ value, (path, value) ∉ settings table := by
  induction path generalizing table with
  | nil => exact absurd rfl nonempty
  | cons key rest ih =>
      by_cases last : rest = []
      · subst last
        rw [forbid, Shape.decode, forM_ok]
        simp only [decodeField_one]
        constructor
        · intro all value node
          obtain ⟨first, held, member, same | ⟨below, rfl, ⟨deeper, _⟩, within, same⟩⟩ :=
            mem_settings.mp node
          · cases same
            exact never_decode _ (all _ member rfl)
          · cases same
            exact settings_ne_nil below _ within rfl
        · rintro absent ⟨first, held⟩ member rfl
          exact absurd (mem_settings.mpr ⟨_, held, member, .inl rfl⟩) (absent held)
      · have other : forbid (key :: rest) =
            .structure [(key, .either (fun _ => .ok ()) (forbid rest))] false := by
          obtain ⟨second, more, rfl⟩ := List.exists_cons_of_ne_nil last
          rfl
        rw [other, Shape.decode, forM_ok]
        simp only [decodeField_one]
        constructor
        · intro all value node
          obtain ⟨first, held, member, same | ⟨below, rfl, ⟨deeper, _⟩, within, same⟩⟩ :=
            mem_settings.mp node
          · cases same
            exact last rfl
          · cases same
            have decodes := all _ member rfl
            exact (ih last).mp decodes _ within
        · rintro absent ⟨first, held⟩ member rfl
          cases held with
          | table inner =>
              refine (ih last).mpr fun value within => absent value ?_
              exact mem_settings.mpr ⟨_, _, member, .inr ⟨inner, rfl, _, within, rfl⟩⟩
          | string | integer | float | boolean | datetime | array => rfl

/-- A schema that refuses just the sources that hold a node. -/
def forbidding (path : List String) (nonempty : path ≠ []) : Declared :=
  ⟨forbid path, forbid_empty nonempty⟩

/-! ## Nodes of a single path -/

theorem below_table {value held : TomlValue} {path : List String}
    (below : Below value path held) : ∃ inner, value = .table inner ∧
      (path, held) ∈ settings inner := by
  cases value with
  | table inner => exact ⟨inner, rfl, below⟩
  | string | integer | float | boolean | datetime | array => cases below

theorem mem_single {key : String} {value held : TomlValue} {other : List String} :
    (other, held) ∈ settings [(key, value)] ↔
      (other = [key] ∧ held = value) ∨ ∃ more, other = key :: more ∧ Below value more held := by
  constructor
  · intro node
    obtain ⟨first, found, member, same | ⟨below, rfl, ⟨deeper, _⟩, within, same⟩⟩ :=
      mem_settings.mp node
    · cases List.mem_singleton.mp member
      cases same
      exact .inl ⟨rfl, rfl⟩
    · cases List.mem_singleton.mp member
      cases same
      exact .inr ⟨deeper, rfl, within⟩
  · rintro (⟨rfl, rfl⟩ | ⟨more, rfl, below⟩)
    · exact mem_settings.mpr ⟨key, held, List.mem_singleton.mpr rfl, .inl rfl⟩
    · obtain ⟨inner, rfl, within⟩ := below_table below
      exact mem_settings.mpr ⟨key, _, List.mem_singleton.mpr rfl, .inr ⟨inner, rfl, _, within, rfl⟩⟩

/-- The nodes of a value under a path are the parts of the path, and the nodes below it. -/
theorem mem_nest {path other : List String} {value : TomlValue} (nonempty : path ≠ [])
    (named : other ≠ []) : (∃ held, (other, held) ∈ settings (nest path value)) ↔
      other <+: path ∨ ∃ more held, other = path ++ more ∧ Below value more held := by
  obtain ⟨first, others, rfl⟩ := List.exists_cons_of_ne_nil named
  induction path generalizing first others with
  | nil => exact absurd rfl nonempty
  | cons key rest ih =>
      by_cases last : rest = []
      · subst last
        show (∃ held, (first :: others, held) ∈ settings [(key, value)]) ↔ _
        simp only [mem_single]
        constructor
        · rintro ⟨held, ⟨same, rfl⟩ | ⟨more, same, below⟩⟩
          · exact .inl (same ▸ List.prefix_refl _)
          · exact .inr ⟨more, held, same, below⟩
        · rintro (within | ⟨more, held, same, below⟩)
          · obtain ⟨rfl, rest⟩ := List.cons_prefix_cons.mp within
            rw [List.prefix_nil.mp rest]
            exact ⟨value, .inl ⟨rfl, rfl⟩⟩
          · exact ⟨held, .inr ⟨more, same, below⟩⟩
      · rw [nest_cons key last]
        simp only [mem_single]
        constructor
        · rintro ⟨held, ⟨same, rfl⟩ | ⟨more, same, below⟩⟩
          · rw [same]
            exact .inl (List.cons_prefix_cons.mpr ⟨rfl, List.nil_prefix⟩)
          · cases same
            obtain ⟨inner, same, within⟩ := below_table below
            cases same
            have some := settings_ne_nil _ _ within
            obtain ⟨second, later, rfl⟩ := List.exists_cons_of_ne_nil some
            rcases (ih last second later some).mp ⟨held, within⟩ with begins | ⟨more, held', same, below⟩
            · exact .inl (List.cons_prefix_cons.mpr ⟨rfl, begins⟩)
            · exact .inr ⟨more, held', congrArg (key :: ·) same, below⟩
        · rintro (within | ⟨more, held, same, below⟩)
          · obtain ⟨rfl, begins⟩ := List.cons_prefix_cons.mp within
            cases others with
            | nil => exact ⟨_, .inl ⟨rfl, rfl⟩⟩
            | cons second later =>
                obtain ⟨held, node⟩ := (ih last second later (List.cons_ne_nil _ _)).mpr (.inl begins)
                exact ⟨held, .inr ⟨_, rfl, node⟩⟩
          · obtain ⟨rfl, rfl⟩ := List.cons.inj same
            obtain ⟨second, later, parts⟩ := List.exists_cons_of_ne_nil last
            have same : rest ++ more = second :: (later ++ more) := by rw [parts]; rfl
            obtain ⟨held', node⟩ := (ih last second (later ++ more) (List.cons_ne_nil _ _)).mpr
              (.inr ⟨more, held, same.symm, below⟩)
            rw [← same] at node
            exact ⟨held', .inr ⟨_, rfl, node⟩⟩

/-! ## The search -/

section Search

variable {schema : Schema} {leading fallback : String}

/-- The search ends at the first entry that fails, or where none does. -/
theorem locate_cases (schema : Schema) (leading fallback : String) (table : TomlTable) :
    ((∀ entry ∈ table, schema (nestAt (dottedBelow leading entry.1) entry.2) = .ok ()) ∧
      locateFailure schema leading fallback table =
        ⟨if leading.isEmpty then "<source>" else leading, fallback, "a table"⟩) ∨
    ∃ key value report, (key, value) ∈ table ∧
      schema (nestAt (dottedBelow leading key) value) = .error report ∧
      locateFailure schema leading fallback table =
        narrow schema (dottedBelow leading key) report value := by
  induction table with
  | nil => exact .inl ⟨fun _ member => (nomatch member), rfl⟩
  | cons entry rest ih =>
      obtain ⟨key, value⟩ := entry
      rw [locateFailure, locateEntry]
      cases decoded : schema (nestAt (dottedBelow leading key) value) with
      | ok =>
          rcases ih with ⟨all, none⟩ | ⟨other, held, report, member, fails, found⟩
          · exact .inl ⟨List.forall_mem_cons.mpr ⟨decoded, all⟩, none⟩
          · exact .inr ⟨other, held, report, List.mem_cons_of_mem _ member, fails, found⟩
      | error report => exact .inr ⟨key, value, report, List.mem_cons_self, decoded, rfl⟩

/-- A table that fails is named as the search in it names a part. -/
theorem narrow_key (path report : String) (inner : TomlTable) :
    (narrow schema path report (.table inner)).key = (locateFailure schema path report inner).key := by
  rw [narrow]
  split
  next => rfl
  next same => exact (not_not.mp same).symm

theorem narrow_leaf {path report : String} {value : TomlValue}
    (leaf : ∀ inner, value ≠ .table inner) : (narrow schema path report value).key = path := by
  cases value with
  | table inner => exact absurd rfl (leaf inner)
  | string | integer | float | boolean | datetime | array => rfl

theorem size_inner {key : String} {inner table : TomlTable}
    (member : (key, .table inner) ∈ table) : sizeEntries inner < sizeEntries table := by
  induction table with
  | nil => cases member
  | cons entry rest ih =>
      rw [sizeEntries]
      rcases List.mem_cons.mp member with rfl | later
      · rw [sizeEntry, size]
        omega
      · have inner := ih later
        omega

/-- What is named is the source, or the key that was searched, or one that fails where it
is read. -/
theorem locate_named (schema : Schema) (leading fallback : String) (table : TomlTable) :
    (locateFailure schema leading fallback table).key = "<source>" ∨
    ((locateFailure schema leading fallback table).key = leading ∧ leading ≠ "") ∨
    ∃ value, schema (nestAt (locateFailure schema leading fallback table).key value) ≠ .ok () := by
  induction size : sizeEntries table using Nat.strong_induction_on
    generalizing table leading fallback with
  | _ _ ih =>
      rcases locate_cases schema leading fallback table with ⟨_, none⟩ |
        ⟨key, value, report, member, fails, found⟩
      · rw [none]
        dsimp only
        split
        next => exact .inl rfl
        next some =>
          rw [String.isEmpty_iff] at some
          exact .inr (.inl ⟨rfl, some⟩)
      · have own : schema (nestAt (dottedBelow leading key) value) ≠ .ok () := by
          rw [fails]
          exact fun same => nomatch same
        rw [found]
        by_cases table' : ∃ inner, value = .table inner
        · obtain ⟨inner, rfl⟩ := table'
          rw [narrow_key]
          subst size
          rcases ih _ (size_inner member) (dottedBelow leading key) report inner rfl with source | ⟨same, _⟩ | deeper
          · exact .inl source
          · rw [same]
            exact .inr (.inr ⟨_, own⟩)
          · exact .inr (.inr deeper)
        · rw [narrow_leaf fun inner same => table' ⟨inner, same⟩]
          exact .inr (.inr ⟨value, own⟩)

end Search

/-! ## Sources without dots -/

/-- **A source whose keys are read as they stand**: none has a dot, and no table stands under
the empty key. -/
structure Plain (source : TomlTable) : Prop where
  dotless : ∀ path value, (path, value) ∈ settings source → ∀ key ∈ path, '.' ∉ key.toList
  named : ∀ inner, ("", .table inner) ∉ source

section Search

variable {schema : Schema} {path : List String}

theorem nestAt_plain (named : path = [] ∨ dottedPath path ≠ "") {key : String}
    (dotless : ∀ part ∈ path ++ [key], '.' ∉ part.toList) (value : TomlValue) :
    nestAt (dottedBelow (dottedPath path) key) value = nest (path ++ [key]) value := by
  rw [nestAt, dottedBelow_path named, segments_plain (by simp) dotless]

/-- **The search in a table without dots** ends at the table, where every entry decodes, or
at a smallest node that fails. -/
theorem locate_plain (pieces : Piecewise schema) (table : TomlTable) (fallback : String)
    (named : path = [] ∨ dottedPath path ≠ "")
    (dotless : ∀ key ∈ path, '.' ∉ key.toList)
    (within : ∀ more value, (more, value) ∈ settings table → ∀ key ∈ more, '.' ∉ key.toList)
    (root : path = [] → ∀ inner, ("", .table inner) ∉ table) :
    (∀ entry ∈ table, schema (nest (path ++ [entry.1]) entry.2) = .ok ()) ∧
      (locateFailure schema (dottedPath path) fallback table).key =
        (if (dottedPath path).isEmpty then "<source>" else dottedPath path) ∨
    ∃ more value, (more, value) ∈ settings table ∧
      (locateFailure schema (dottedPath path) fallback table).key = dottedPath (path ++ more) ∧
      Fails schema (path ++ more) value ∧
      ∀ below held, Below value below held → ¬Fails schema (path ++ more ++ below) held := by
  induction size : sizeEntries table using Nat.strong_induction_on
    generalizing table path fallback with
  | _ _ ih =>
      have keyed : ∀ entry ∈ table, ∀ part ∈ path ++ [entry.1], '.' ∉ part.toList := by
        intro entry member part here
        rcases List.mem_append.mp here with above | own
        · exact dotless part above
        · rw [List.mem_singleton.mp own]
          exact within [entry.1] entry.2 (mem_settings.mpr ⟨_, _, member, .inl rfl⟩) _
            List.mem_cons_self
      rcases locate_cases schema (dottedPath path) fallback table with ⟨all, none⟩ |
        ⟨key, value, report, member, fails, found⟩
      · refine .inl ⟨fun entry member => ?_, congrArg Located.key none⟩
        rw [← nestAt_plain named (keyed entry member)]
        exact all entry member
      · right
        have clean := keyed _ member
        rw [nestAt_plain named clean] at fails
        rw [dottedBelow_path named] at found
        have own : Fails schema (path ++ [key]) value := by
          rw [Fails, fails]
          exact fun same => nomatch same
        have node : ([key], value) ∈ settings table := mem_settings.mpr ⟨_, _, member, .inl rfl⟩
        rw [found]
        by_cases table' : ∃ inner, value = .table inner
        · obtain ⟨inner, rfl⟩ := table'
          subst size
          have named' : dottedPath (path ++ [key]) ≠ "" := by
            rcases named with rfl | named
            · rintro rfl
              exact root rfl inner member
            · have nonempty : path ≠ [] := by
                rintro rfl
                exact named rfl
              rw [dottedPath_concat nonempty]
              intro same
              have text := congrArg String.toList same
              simp at text
          have deeper : ∀ more value, (more, value) ∈ settings inner →
              (key :: more, value) ∈ settings table := by
            intro more value here
            exact mem_settings.mpr ⟨_, _, member, .inr ⟨inner, rfl, _, here, rfl⟩⟩
          rw [narrow_key]
          have search := @ih _ (size_inner member) (path ++ [key]) inner report (.inr named') clean
            (fun more value here part own => within _ value (deeper more value here) part
              (List.mem_cons_of_mem _ own)) (fun none => absurd none (by simp)) rfl
          rcases search with ⟨all, last⟩ | ⟨more, value, here, last, fails, least⟩
          · refine ⟨[key], _, node, ?_, own, fun below held within => ?_⟩
            · rw [last, if_neg]
              rwa [String.isEmpty_iff]
            · exact not_not.mpr (pieces.all_below (by simp) all within)
          · rw [List.append_assoc] at last fails least
            exact ⟨key :: more, value, deeper more value here, last, fails, least⟩
        · refine ⟨[key], value, node, narrow_leaf fun inner same => table' ⟨inner, same⟩, own,
            fun below held within => ?_⟩
          obtain ⟨inner, same, _⟩ := below_table within
          exact absurd ⟨inner, same⟩ table'

end Search

/-! ## What a failure names -/

/-- **A key that names a smallest failure**: it is the dotted path of a node that fails, with
nothing below it that does, and of none that decodes. -/
structure Named (schema : Schema) (source : TomlTable) (key : String) : Prop where
  smallest : ∃ path value, (path, value) ∈ settings source ∧ dottedPath path = key ∧
    Fails schema path value ∧ ∀ below held, Below value below held →
      ¬Fails schema (path ++ below) held
  only : ∀ path value, (path, value) ∈ settings source → dottedPath path = key →
    Fails schema path value

/-- A source with a value that nests too deep. -/
def Deep (source : TomlTable) : Prop := ∃ entry ∈ source, maxValueDepth < depth entry.2

/-- **A source is decoded as it should be**: accepted just where no value is too deep and it
decodes, refused under the name of a smallest failure; and what is too deep is refused
whatever would decode it. -/
structure Exact (schema : Schema) (source : TomlTable) : Prop where
  accepts : decodeSource schema source = .ok () ↔ ¬Deep source ∧ schema source = .ok ()
  named : ∀ key report found,
    decodeSource schema source = .error (.undecoded key report found) → Named schema source key
  deep : Deep source ↔ ∃ key, decodeSource schema source = .error (.valueTooDeep key maxValueDepth)
  untouched : Deep source → ∀ other, decodeSource other source = decodeSource schema source
  single : ∀ key value, (segments key).length ≤ maxKeyDepth →
    (decodeSingle schema key value = .error (.valueTooDeep key maxValueDepth) ↔
      maxValueDepth < depth value) ∧
    (maxValueDepth < depth value → ∀ other,
      decodeSingle other key value = decodeSingle schema key value)

section Source

variable {schema : Schema} {source : TomlTable}

theorem deep_iff : Deep source ↔
    ∃ entry, source.find? (fun entry => exceedsDepth entry.2 maxValueDepth) = some entry := by
  rw [← Option.isSome_iff_exists, List.find?_isSome]
  simp only [exceedsDepth_iff, Deep]

theorem decodeSource_deep (deep : Deep source) : ∃ key, ∀ schema,
    decodeSource schema source = .error (.valueTooDeep key maxValueDepth) := by
  obtain ⟨entry, found⟩ := deep_iff.mp deep
  exact ⟨entry.1, fun schema => by rw [decodeSource, found]⟩

theorem decodeSource_shallow (shallow : ¬Deep source) : decodeSource schema source =
    match schema source with
    | .ok () => .ok ()
    | .error report => .error (.undecoded (locateFailure schema "" report source).key
        (locateFailure schema "" report source).report
        (locateFailure schema "" report source).found) := by
  have none : source.find? (fun entry => exceedsDepth entry.2 maxValueDepth) = none := by
    rw [Option.eq_none_iff_forall_ne_some]
    exact fun entry found => shallow (deep_iff.mpr ⟨entry, found⟩)
  cases decoded : schema source <;> simp only [decodeSource, none, decoded]

theorem decodeSingle_deep {key : String} {value : TomlValue}
    (short : (segments key).length ≤ maxKeyDepth) :
    (decodeSingle schema key value = .error (.valueTooDeep key maxValueDepth) ↔
      maxValueDepth < depth value) ∧
    (maxValueDepth < depth value → ∀ other,
      decodeSingle other key value = decodeSingle schema key value) := by
  have fits : ¬maxKeyDepth < (splitDots key.toList).length := by
    rw [segments, List.length_map] at short
    exact Nat.not_lt.mpr short
  unfold decodeSingle
  simp only [if_neg fits, exceedsDepth_iff]
  constructor
  · constructor
    · intro refused
      by_contra shallow
      rw [if_neg shallow] at refused
      split at refused <;> cases refused
    · exact fun deep => if_pos deep
  · intro deep other
    rw [if_pos deep, if_pos deep]

/-- Two nodes of one path hold one value. -/
theorem settings_unique {path : List String} {value other : TomlValue} (keyed : source.Keyed)
    (node : (path, value) ∈ settings source) (also : (path, other) ∈ settings source) :
    value = other := by
  induction path generalizing source with
  | nil => exact absurd rfl (settings_ne_nil source _ node)
  | cons key rest ih =>
      obtain ⟨first, held, member, here⟩ := mem_settings.mp node
      obtain ⟨first', held', member', here'⟩ := mem_settings.mp also
      have same : first = key ∧ first' = key := by
        constructor
        · rcases here with same | ⟨_, _, _, _, same⟩ <;> cases same <;> rfl
        · rcases here' with same | ⟨_, _, _, _, same⟩ <;> cases same <;> rfl
      obtain ⟨rfl, rfl⟩ := same
      obtain ⟨found, inner⟩ := keyed.lookup member
      have one : held = held' := Option.some.inj (found.symm.trans (keyed.lookup member').1)
      subst one
      rcases here with same | ⟨below, rfl, ⟨deeper, _⟩, within, same⟩ <;>
        rcases here' with same' | ⟨below', rfl', ⟨deeper', _⟩, within', same'⟩
      · cases same
        cases same'
        rfl
      · cases same
        cases same'
        exact absurd rfl (settings_ne_nil _ _ within')
      · cases same
        cases same'
        exact absurd rfl (settings_ne_nil _ _ within)
      · cases same
        cases same'
        cases rfl'
        exact ih inner within within'

/-- **In a source without dots, a failure names a smallest part that fails.** -/
theorem named_of_plain (pieces : Piecewise schema) (keyed : source.Keyed) (plain : Plain source)
    {report fallback : String} (fails : schema source = .error report) :
    Named schema source (locateFailure schema "" fallback source).key := by
  rcases locate_plain pieces source fallback (.inl rfl) (fun _ member => nomatch member)
    plain.dotless (fun _ => plain.named) with ⟨all, _⟩ | ⟨path, value, node, found, own, least⟩
  · have decodes := (pieces.root source).mpr all
    rw [fails] at decodes
    cases decodes
  · refine ⟨⟨path, value, node, found.symm, own, least⟩, fun path' value' node' same => ?_⟩
    have some : path ≠ [] := settings_ne_nil _ _ node
    have some' : path' ≠ [] := settings_ne_nil _ _ node'
    have one : path' = path := by
      rw [← segments_plain some' (plain.dotless _ _ node'),
        ← segments_plain some (plain.dotless _ _ node)]
      exact congrArg segments (same.trans found)
    subst one
    rw [← settings_unique keyed node node']
    exact own

theorem exact_of_named (named : ¬Deep source → ∀ report, schema source = .error report →
    Named schema source (locateFailure schema "" report source).key) : Exact schema source := by
  by_cases deep : Deep source
  · obtain ⟨key, refused⟩ := decodeSource_deep deep
    refine ⟨?_, ?_, ?_, ?_, fun key value short => decodeSingle_deep short⟩
    · rw [refused]
      exact ⟨fun same => (nomatch same), fun both => absurd deep both.1⟩
    · rw [refused]
      exact fun _ _ _ same => nomatch same
    · exact iff_of_true deep ⟨key, refused schema⟩
    · exact fun _ other => (refused other).trans (refused schema).symm
  · have shallow := @decodeSource_shallow schema source deep
    cases decoded : schema source with
    | ok =>
        rw [decoded] at shallow
        refine ⟨iff_of_true shallow ⟨deep, decoded⟩, ?_, ?_, fun past => absurd past deep,
          fun key value short => decodeSingle_deep short⟩
        · rw [shallow]
          exact fun _ _ _ same => nomatch same
        · rw [shallow]
          exact iff_of_false deep fun ⟨_, same⟩ => nomatch same
    | error report =>
        rw [decoded] at shallow
        refine ⟨?_, ?_, ?_, fun past => absurd past deep,
          fun key value short => decodeSingle_deep short⟩
        · rw [shallow, decoded]
          exact ⟨fun same => (nomatch same), fun both => (nomatch both.2)⟩
        · rw [shallow]
          intro key _ _ same
          cases same
          exact named deep report decoded
        · rw [shallow]
          exact iff_of_false deep fun ⟨_, same⟩ => nomatch same

end Source

/-! ## Sources with dots -/

section Dotted

variable {source : TomlTable} {path : List String} {value : TomlValue}

theorem fails_forbidding (nonempty : path ≠ []) {other : List String} {held : TomlValue}
    (some : other ≠ []) : Fails (forbidding path nonempty).schema other held ↔
      path <+: other ∨ ∃ more within, path = other ++ more ∧ Below held more within := by
  rw [← mem_nest some nonempty, Fails, Ne]
  show ¬(forbid path).decode (.table (nest other held)) = .ok () ↔ _
  rw [forbid_iff nonempty]
  push Not
  rfl

theorem forbidding_fails (node : (path, value) ∈ settings source) :
    ∃ report, (forbidding path (settings_ne_nil source _ node)).schema source = .error report := by
  cases decoded : (forbidding path (settings_ne_nil source _ node)).schema source with
  | ok => exact absurd node ((forbid_iff (settings_ne_nil source _ node)).mp decoded value)
  | error report => exact ⟨report, rfl⟩

/-- A smallest failure of a schema that forbids a node is the node, or below it. -/
theorem smallest_forbidding (nonempty : path ≠ []) {other : List String} {held : TomlValue}
    (some : other ≠ []) (fails : Fails (forbidding path nonempty).schema other held)
    (least : ∀ below within, Below held below within →
      ¬Fails (forbidding path nonempty).schema (other ++ below) within) : path <+: other := by
  rcases (fails_forbidding nonempty some).mp fails with begins | ⟨more, within, rfl, below⟩
  · exact begins
  · refine absurd ?_ (least more within below)
    exact (fails_forbidding nonempty nonempty).mpr (.inl (List.prefix_refl _))

theorem source_dotless : '.' ∉ "<source>".toList := by decide +kernel

theorem dot_of_prefix {key : String} (member : key ∈ path) (dot : '.' ∈ key.toList)
    {other : List String} (begins : path <+: other) : '.' ∈ (dottedPath other).toList := by
  have own := begins.subset member
  clear begins member
  induction other with
  | nil => cases own
  | cons first rest ih =>
      by_cases last : rest = []
      · subst last
        rwa [← List.mem_singleton.mp own]
      · rw [dottedPath_cons first last, String.toList_append, String.toList_append]
        refine List.mem_append_left _ (List.mem_append_right _ ?_)
        decide

/-- **A node with a dot is not found** by a search for what fails where it is read. -/
theorem not_named_dotted (node : (path, value) ∈ settings source) {key : String}
    (member : key ∈ path) (dot : '.' ∈ key.toList) {report : String} :
    ¬Named (forbidding path (settings_ne_nil source _ node)).schema source
      (locateFailure (forbidding path (settings_ne_nil source _ node)).schema "" report
        source).key := by
  have nonempty : path ≠ [] := settings_ne_nil source _ node
  rintro ⟨⟨other, held, node', same, fails, least⟩, -⟩
  have some : other ≠ [] := settings_ne_nil source _ node'
  have begins := smallest_forbidding nonempty some fails least
  rcases locate_named (forbidding path nonempty).schema "" report source with
    own | ⟨_, absurd'⟩ | ⟨within, own⟩
  · rw [own] at same
    have dotted := dot_of_prefix member dot begins
    rw [same] at dotted
    exact source_dotless dotted
  · exact absurd' rfl
  · -- what is read has no dot in its keys, and goes deeper than the node
    rw [← same] at own
    have longer := length_segments some
    rcases (fails_forbidding nonempty (segments_ne_nil _)).mp own with inside | ⟨more, _, parts, _⟩
    · exact dotless_segments (inside.subset member) dot
    · have deeper := begins.length_le
      have total := congrArg List.length parts
      rw [List.length_append] at total
      have none : more = [] := List.eq_nil_of_length_eq_zero (by omega)
      rw [none, List.append_nil] at parts
      rw [parts] at member
      exact dotless_segments member dot

/-- A text that begins with a dot. -/
def OpensDot (text : String) : Prop := text.toList.head? = some '.'

theorem dottedBelow_plain {leading key : String} (plain : ¬OpensDot leading)
    (dotless : '.' ∉ key.toList) : ¬OpensDot (dottedBelow leading key) := by
  unfold dottedBelow
  split
  next => exact fun opens => dotless (List.mem_of_mem_head? opens)
  next some =>
    rw [String.isEmpty_iff] at some
    intro opens
    refine plain ?_
    have filled : leading.toList ≠ [] := fun none => some (String.toList_eq_nil_iff.mp none)
    rw [OpensDot, String.toList_append, String.toList_append, List.append_assoc,
      List.head?_append_of_ne_nil _ filled] at opens
    exact opens

/-- Without dots, no key that is named begins with one. -/
theorem locate_plain_opening (schema : Schema) (leading fallback : String) (table : TomlTable)
    (plain : ¬OpensDot leading)
    (dotless : ∀ more value, (more, value) ∈ settings table → ∀ key ∈ more, '.' ∉ key.toList) :
    ¬OpensDot (locateFailure schema leading fallback table).key := by
  induction size : sizeEntries table using Nat.strong_induction_on
    generalizing table leading fallback with
  | _ _ ih =>
      rcases locate_cases schema leading fallback table with ⟨_, none⟩ |
        ⟨key, value, report, member, _, found⟩
      · rw [none]
        dsimp only
        split
        next => exact fun opens => absurd opens (by unfold OpensDot; decide +kernel)
        next => exact plain
      · have below : ¬OpensDot (dottedBelow leading key) := by
          refine dottedBelow_plain plain ?_
          exact dotless [key] value (mem_settings.mpr ⟨_, _, member, .inl rfl⟩) _ List.mem_cons_self
        rw [found]
        by_cases table' : ∃ inner, value = .table inner
        · obtain ⟨inner, rfl⟩ := table'
          subst size
          rw [narrow_key]
          refine ih _ (size_inner member) _ _ inner below (fun more value node part own => ?_) rfl
          exact dotless _ value (mem_settings.mpr ⟨_, _, member, .inr ⟨inner, rfl, _, node, rfl⟩⟩) _
            (List.mem_cons_of_mem _ own)
        · rwa [narrow_leaf fun inner same => table' ⟨inner, same⟩]

theorem opens_empty {more : List String} (some : more ≠ []) : OpensDot (dottedPath ("" :: more)) := by
  rw [dottedPath_cons "" some, OpensDot, String.toList_append, String.toList_append]
  rfl

/-- **A table under the empty key is not searched** as one. -/
theorem not_named_empty (keyed : source.Keyed) {inner : TomlTable}
    (member : ("", .table inner) ∈ source)
    (dotless : ∀ path value, (path, value) ∈ settings source → ∀ key ∈ path, '.' ∉ key.toList) :
    ∃ declared : Declared, ∃ report, declared.schema source = .error report ∧
      ¬Named declared.schema source (locateFailure declared.schema "" report source).key := by
  have plain (schema : Schema) (report : String) :=
    locate_plain_opening schema "" report source (by unfold OpensDot; decide +kernel) dotless
  cases inner with
  | nil =>
      have node : ([""], .table []) ∈ settings source := mem_settings.mpr ⟨_, _, member, .inl rfl⟩
      obtain ⟨report, fails⟩ := forbidding_fails node
      refine ⟨_, report, fails, ?_⟩
      rintro ⟨⟨other, held, node', same, own, least⟩, -⟩
      obtain ⟨more, rfl⟩ := smallest_forbidding _ (settings_ne_nil _ _ node') own least
      cases more with
      | cons second rest =>
          have opens : OpensDot (dottedPath ([""] ++ second :: rest)) :=
            opens_empty (List.cons_ne_nil second rest)
          rw [same] at opens
          exact plain _ report opens
      | nil =>
          have empty : dottedPath ([""] ++ []) = "" := rfl
          rw [empty] at same
          rcases locate_cases (forbidding [""] (settings_ne_nil source _ node)).schema "" report
            source with ⟨_, none⟩ | ⟨key, value, inner, member', fails', found⟩
          · rw [none, if_pos (by decide +kernel)] at same
            exact absurd same (show "" ≠ "<source>" by decide)
          · -- the entry that fails is the empty table, which is named as the source
            have clean := dotless [key] value (mem_settings.mpr ⟨_, _, member', .inl rfl⟩) key
              List.mem_cons_self
            have at' : nestAt (dottedBelow "" key) value = nest [key] value := by
              show nest (segments key) value = _
              rw [segments_dotless clean]
            have own : Fails (forbidding [""] (settings_ne_nil source _ node)).schema [key] value := by
              rw [Fails, ← at', fails']
              exact fun same => nomatch same
            have named : key = "" := by
              rcases (fails_forbidding _ (List.cons_ne_nil key [])).mp own with begins |
                ⟨more, _, parts, _⟩
              · exact (List.cons_prefix_cons.mp begins).1.symm
              · exact (List.cons.inj parts).1.symm
            subst named
            have one := Option.some.inj
              ((keyed.lookup member).1.symm.trans (keyed.lookup member').1)
            rw [found, ← one, narrow_key, locateFailure, if_pos (by decide +kernel)] at same
            exact absurd same (show "" ≠ "<source>" by decide)
  | cons entry rest =>
      obtain ⟨key, value⟩ := entry
      have node : (["", key], value) ∈ settings source :=
        mem_settings.mpr ⟨_, _, member, .inr ⟨_, rfl, ([key], value),
          mem_settings.mpr ⟨_, _, List.mem_cons_self, .inl rfl⟩, rfl⟩⟩
      obtain ⟨report, fails⟩ := forbidding_fails node
      refine ⟨_, report, fails, ?_⟩
      rintro ⟨⟨other, held, node', same, own, least⟩, -⟩
      obtain ⟨more, rfl⟩ := smallest_forbidding _ (settings_ne_nil _ _ node') own least
      have opens : OpensDot (dottedPath (["", key] ++ more)) := opens_empty (List.cons_ne_nil key more)
      rw [same] at opens
      exact plain _ report opens

end Dotted

/-- A table of numbers, under any keys. -/
def numbers : Declared where
  shape := .map (.scalar fun value => match value with
    | .integer _ => .ok ()
    | _ => .error "invalid type")
  empty := rfl

/-- A number under a key with a dot, and a text. -/
def limits : DecodedLayer :=
  ⟨.file "limits.toml", [("a.b", .integer 5), ("c", .string "x")], trivial, rfl, trivial, rfl,
    trivial⟩

end Renvor.Decode
