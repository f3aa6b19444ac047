import Mathlib.Data.List.Induction
import Renvor.Foundation.OrderedMap

/-! # Maps of lists

A list makes a map that holds the last value of each key
(`Foundation.OrderedMap.get?_ofEntries_append`).
-/

namespace Foundation.OrderedMap

universe u v

variable {Key : Type u} {Value : Type v} [LinearOrder Key]

/-- Maps that hold the same under every key are equal. -/
theorem ext_get? {first second : OrderedMap Key Value}
    (same : ∀ key, first.get? key = second.get? key) : first = second := by
  have members : ∀ entry, entry ∈ first.entries ↔ entry ∈ second.entries := by
    intro entry
    rw [← mem_entries, ← mem_entries, ← get?_some, ← get?_some, same]
  have permuted := (List.perm_ext_iff_of_nodup first.nodup second.nodup).mpr members
  have entries := permuted.eq_of_pairwise (fun entry other _ _ below above =>
    (lt_asymm below above).elim) (List.pairwise_map.mp first.sorted)
    (List.pairwise_map.mp second.sorted)
  cases first
  cases second
  cases entries
  rfl

/-- The map of a list, the last value of a key kept. -/
def ofEntries (entries : List (Key × Value)) : OrderedMap Key Value :=
  entries.foldl (fun map entry => map.insert entry.1 entry.2) empty

/-- Entries put into a map one after the other: a key holds the last of its values, or what it
held before. -/
theorem get?_foldl_insert (entries : List (Key × Value)) (map : OrderedMap Key Value) (key : Key) :
    (entries.foldl (fun map entry => map.insert entry.1 entry.2) map).get? key =
      ((ofEntries entries).get? key).or (map.get? key) := by
  induction entries using List.reverseRecOn with
  | nil => rfl
  | append_singleton rest entry ih =>
      rw [ofEntries, List.foldl_append, List.foldl_append, List.foldl_cons, List.foldl_nil,
        List.foldl_cons, List.foldl_nil]
      by_cases same : key = entry.1
      · rw [same, get?_insert_self, get?_insert_self, Option.some_or]
      · rw [get?_insert_of_ne same, get?_insert_of_ne same, ih, ofEntries]

/-- An entry behind the others is put in last. -/
theorem ofEntries_concat (entries : List (Key × Value)) (entry : Key × Value) :
    ofEntries (entries ++ [entry]) = (ofEntries entries).insert entry.1 entry.2 := by
  rw [ofEntries, List.foldl_append]
  rfl

/-- Of two lists of entries the later one decides, where it has the key at all. -/
theorem get?_ofEntries_append (front back : List (Key × Value)) (key : Key) :
    (ofEntries (front ++ back)).get? key =
      ((ofEntries back).get? key).or ((ofEntries front).get? key) := by
  rw [ofEntries, List.foldl_append, get?_foldl_insert]
  rfl

/-- A key holds nothing exactly where no entry has it. -/
theorem get?_ofEntries_none {entries : List (Key × Value)} {key : Key} :
    (ofEntries entries).get? key = none ↔ ∀ value, (key, value) ∉ entries := by
  induction entries using List.reverseRecOn with
  | nil => exact iff_of_true rfl fun _ => List.not_mem_nil
  | append_singleton rest entry ih =>
      rw [ofEntries_concat]
      by_cases same : key = entry.1
      · rw [same, get?_insert_self]
        exact iff_of_false (Option.some_ne_none _) fun absent =>
          absent entry.2 (List.mem_append_right rest List.mem_cons_self)
      · rw [get?_insert_of_ne same, ih]
        refine forall_congr' fun value => not_congr ?_
        rw [List.mem_append, List.mem_singleton]
        exact (or_iff_left fun last => same (congrArg Prod.fst last)).symm

/-- What a key holds stands in one of its entries. -/
theorem mem_of_get?_ofEntries {entries : List (Key × Value)} {key : Key} {value : Value}
    (held : (ofEntries entries).get? key = some value) : (key, value) ∈ entries := by
  induction entries using List.reverseRecOn with
  | nil => cases held
  | append_singleton rest entry ih =>
      rw [ofEntries_concat] at held
      by_cases same : key = entry.1
      · rw [same, get?_insert_self] at held
        cases held
        rw [same]
        exact List.mem_append_right rest List.mem_cons_self
      · rw [get?_insert_of_ne same] at held
        exact List.mem_append_left [entry] (ih held)

/-- The map of a map's entries. -/
theorem ofEntries_entries (map : OrderedMap Key Value) : ofEntries map.entries = map := by
  refine ext_get? fun key => ?_
  cases found : (ofEntries map.entries).get? key with
  | none => exact (get?_none.mpr (get?_ofEntries_none.mp found)).symm
  | some value => exact (get?_some.mpr (mem_of_get?_ofEntries found)).symm

/-- What is changed under each key before is changed in the map. -/
theorem get?_ofEntries_map {Other : Type v} {change : Value → Option Other}
    {entries : List (Key × Value)} {changed : List (Key × Other)}
    (each : List.Forall₂ (fun entry other => other.1 = entry.1 ∧ change entry.2 = some other.2)
      entries changed) (key : Key) :
    (ofEntries changed).get? key = ((ofEntries entries).get? key).bind change := by
  have run : ∀ (map : OrderedMap Key Value) (other : OrderedMap Key Other),
      (∀ key, other.get? key = (map.get? key).bind change) → ∀ key,
      (changed.foldl (fun map entry => map.insert entry.1 entry.2) other).get? key =
        ((entries.foldl (fun map entry => map.insert entry.1 entry.2) map).get? key).bind
          change := by
    induction each with
    | nil => exact fun _ _ alike => alike
    | @cons entry changed _ _ head _ ih =>
        intro map other alike
        refine ih _ _ fun key => ?_
        dsimp only
        by_cases same : key = entry.1
        · rw [head.1, same, get?_insert_self, get?_insert_self, Option.bind_some, head.2]
        · rw [head.1, get?_insert_of_ne same, get?_insert_of_ne same, alike]
  exact run empty empty (fun _ => rfl) key

end Foundation.OrderedMap
