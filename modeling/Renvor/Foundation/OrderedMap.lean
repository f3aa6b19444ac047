import Mathlib.Algebra.GroupWithZero.Nat
import Mathlib.Data.List.Sort
import Mathlib.Order.Lattice

/-! # Finite maps in key order

A map is its list of entries with strictly increasing keys. A search in key
order finds the entry with the least key that satisfies the predicate
(`Foundation.OrderedMap.find?_some`).
-/

namespace Foundation

universe u v

/-- A finite map, its entries in key order. -/
structure OrderedMap (Key : Type u) (Value : Type v) [LinearOrder Key] where
  entries : List (Key × Value)
  sorted : (entries.map Prod.fst).Pairwise (· < ·)

namespace OrderedMap

variable {Key : Type u} {Value : Type v} [LinearOrder Key]

/-- The map in which no key holds a value. -/
def empty : OrderedMap Key Value := ⟨[], List.Pairwise.nil⟩

instance : Membership (Key × Value) (OrderedMap Key Value) :=
  ⟨fun map entry => entry ∈ map.entries⟩

/-- An entry is in a map where it is in its list. -/
theorem mem_entries {map : OrderedMap Key Value} {entry : Key × Value} :
    entry ∈ map ↔ entry ∈ map.entries := Iff.rfl

/-- Drops the entry of a key. -/
def erase (map : OrderedMap Key Value) (key : Key) : OrderedMap Key Value where
  entries := map.entries.filter fun entry => decide (entry.1 ≠ key)
  sorted := map.sorted.sublist (List.filter_sublist.map _)

/-- Puts a value under a key, in place of what the key held. -/
def insert (map : OrderedMap Key Value) (key : Key) (value : Value) : OrderedMap Key Value where
  entries := (map.entries.filter fun entry => decide (entry.1 < key)) ++
    (key, value) :: map.entries.filter fun entry => decide (key < entry.1)
  sorted := by
    rw [List.map_append, List.map_cons, List.pairwise_append, List.pairwise_cons]
    refine ⟨map.sorted.sublist (List.filter_sublist.map _), ⟨?_,
      map.sorted.sublist (List.filter_sublist.map _)⟩, ?_⟩
    · intro later listed
      obtain ⟨entry, kept, rfl⟩ := List.mem_map.mp listed
      exact of_decide_eq_true (List.mem_filter.mp kept).2
    · intro earlier listed later after
      obtain ⟨entry, kept, rfl⟩ := List.mem_map.mp listed
      have below : entry.1 < key := of_decide_eq_true (List.mem_filter.mp kept).2
      rcases List.mem_cons.mp after with rfl | beyond
      · exact below
      · obtain ⟨other, also, rfl⟩ := List.mem_map.mp beyond
        exact below.trans (of_decide_eq_true (List.mem_filter.mp also).2)

/-- The first entry in key order that satisfies a predicate. -/
def find? (map : OrderedMap Key Value) (test : Key × Value → Bool) : Option (Key × Value) :=
  map.entries.find? test

/-- No entry is in the empty map. -/
@[simp] theorem not_mem_empty (entry : Key × Value) :
    entry ∉ (empty : OrderedMap Key Value) := by
  simp [mem_entries, empty]

/-- What is left after a key was erased are the entries of other keys. -/
@[simp] theorem mem_erase {map : OrderedMap Key Value} {key : Key} {entry : Key × Value} :
    entry ∈ map.erase key ↔ entry ∈ map ∧ entry.1 ≠ key := by
  simp [mem_entries, erase, List.mem_filter]

/-- After an insertion there are the new entry and those that other keys had. -/
@[simp] theorem mem_insert {map : OrderedMap Key Value} {key : Key} {value : Value}
    {entry : Key × Value} :
    entry ∈ map.insert key value ↔ entry = (key, value) ∨ (entry ∈ map ∧ entry.1 ≠ key) := by
  simp only [mem_entries, insert, List.mem_append, List.mem_cons, List.mem_filter,
    decide_eq_true_eq]
  constructor
  · rintro (⟨listed, below⟩ | same | ⟨listed, above⟩)
    · exact Or.inr ⟨listed, below.ne⟩
    · exact Or.inl same
    · exact Or.inr ⟨listed, above.ne'⟩
  · rintro (same | ⟨listed, different⟩)
    · exact Or.inr (Or.inl same)
    · rcases lt_or_gt_of_ne different with below | above
      · exact Or.inl ⟨listed, below⟩
      · exact Or.inr (Or.inr ⟨listed, above⟩)

/-- A key holds one value. -/
theorem eq_of_mem {map : OrderedMap Key Value} {key : Key} {first second : Value}
    (holds : (key, first) ∈ map) (also : (key, second) ∈ map) : first = second := by
  have distinct : (map.entries.map Prod.fst).Nodup := map.sorted.imp fun below => below.ne
  exact (Prod.ext_iff.mp (List.inj_on_of_nodup_map distinct holds also rfl)).2

/-- **A search finds the least key.** -/
theorem find?_some {map : OrderedMap Key Value} {test : Key × Value → Bool}
    {found : Key × Value} (search : map.find? test = some found) :
    found ∈ map ∧ test found = true ∧ ∀ entry ∈ map, test entry = true → found.1 ≤ entry.1 := by
  obtain ⟨passes, front, rest, split, fails⟩ := List.find?_eq_some_iff_append.mp search
  have sorted := map.sorted
  rw [split, List.map_append, List.map_cons, List.pairwise_append, List.pairwise_cons] at sorted
  refine ⟨by simp [mem_entries, split], passes, ?_⟩
  intro entry member matched
  rw [mem_entries, split] at member
  rcases List.mem_append.mp member with before | after
  · have failed := fails entry before
    simp [matched] at failed
  · rcases List.mem_cons.mp after with rfl | later
    · exact le_refl _
    · exact (sorted.2.1.1 entry.1 (List.mem_map_of_mem later)).le

/-- A search finds nothing exactly where no entry satisfies the predicate. -/
theorem find?_none {map : OrderedMap Key Value} {test : Key × Value → Bool} :
    map.find? test = none ↔ ∀ entry ∈ map, test entry = false := by
  simp [find?, mem_entries]

/-! ## The value of one key -/

/-- The value a key holds. -/
def get? (map : OrderedMap Key Value) (key : Key) : Option Value :=
  (map.find? fun entry => decide (entry.1 = key)).map Prod.snd

/-- A key holds a value where the two are an entry. -/
theorem get?_some {map : OrderedMap Key Value} {key : Key} {value : Value} :
    map.get? key = some value ↔ (key, value) ∈ map := by
  constructor
  · intro held
    obtain ⟨entry, search, rfl⟩ := Option.map_eq_some_iff.mp held
    obtain ⟨member, same, _⟩ := find?_some search
    obtain rfl := of_decide_eq_true same
    exact member
  · intro member
    cases search : map.find? fun entry => decide (entry.1 = key) with
    | none =>
        have differs := find?_none.mp search _ member
        simp at differs
    | some entry =>
        obtain ⟨held, same, _⟩ := find?_some search
        obtain rfl := of_decide_eq_true same
        rw [get?, search, Option.map_some, eq_of_mem held member]

/-- A key holds nothing where it is in no entry. -/
theorem get?_none {map : OrderedMap Key Value} {key : Key} :
    map.get? key = none ↔ ∀ value, (key, value) ∉ map := by
  rw [Option.eq_none_iff_forall_ne_some]
  exact forall_congr' fun value => not_congr get?_some

/-- No key holds anything in the empty map. -/
@[simp] theorem get?_empty (key : Key) : (empty : OrderedMap Key Value).get? key = none := rfl

/-- A key holds what was put under it last. -/
@[simp] theorem get?_insert_self (map : OrderedMap Key Value) (key : Key) (value : Value) :
    (map.insert key value).get? key = some value :=
  get?_some.mpr (mem_insert.mpr (.inl rfl))

/-- Putting a value under a key leaves what other keys hold alone. -/
theorem get?_insert_of_ne {map : OrderedMap Key Value} {key other : Key} {value : Value}
    (different : other ≠ key) : (map.insert key value).get? other = map.get? other := by
  apply Option.ext
  intro held
  rw [get?_some, get?_some, mem_insert]
  constructor
  · rintro (same | ⟨member, _⟩)
    · exact (different (congrArg Prod.fst same)).elim
    · exact member
  · exact fun member => .inr ⟨member, different⟩

/-- What holds along the keys holds of each key and those after it. -/
theorem pairwise_keys {map : OrderedMap Key Value} {relation : Key → Key → Prop} :
    (map.entries.map Prod.fst).Pairwise relation ↔
      ∀ first ∈ map.entries.map Prod.fst, ∀ second ∈ map.entries.map Prod.fst,
        first < second → relation first second := by
  have sorted := map.sorted
  generalize map.entries.map Prod.fst = keys at sorted
  induction keys with
  | nil => exact iff_of_true .nil nofun
  | cons key rest ih =>
      obtain ⟨least, sorted⟩ := List.pairwise_cons.mp sorted
      refine (List.pairwise_cons.trans (and_congr_right fun _ => ih sorted)).trans ?_
      constructor
      · rintro ⟨related, others⟩ first member second after below
        obtain rfl | later := List.mem_cons.mp after
        · obtain rfl | earlier := List.mem_cons.mp member
          · exact (lt_irrefl _ below).elim
          · exact (lt_asymm below (least first earlier)).elim
        · obtain rfl | earlier := List.mem_cons.mp member
          · exact related second later
          · exact others first earlier second later below
      · intro related
        refine ⟨fun second later => ?_, fun first member second after below => ?_⟩
        · exact related key List.mem_cons_self second (List.mem_cons_of_mem key later)
            (least second later)
        · exact related first (List.mem_cons_of_mem key member) second
            (List.mem_cons_of_mem key after) below

/-- A key that was erased holds nothing. -/
theorem get?_erase_self (map : OrderedMap Key Value) (key : Key) :
    (map.erase key).get? key = none :=
  get?_none.mpr fun _ member => (mem_erase.mp member).2 rfl

/-- Erasing a key leaves what other keys hold alone. -/
theorem get?_erase_of_ne {map : OrderedMap Key Value} {key other : Key}
    (different : other ≠ key) : (map.erase key).get? other = map.get? other := by
  apply Option.ext
  intro held
  rw [get?_some, get?_some, mem_erase]
  exact and_iff_left different

/-- Keeps the entries that satisfy a predicate. -/
def retain (map : OrderedMap Key Value) (keep : Key × Value → Bool) : OrderedMap Key Value where
  entries := map.entries.filter keep
  sorted := map.sorted.sublist (List.filter_sublist.map _)

/-- What is kept are the entries that satisfy the predicate. -/
@[simp] theorem mem_retain {map : OrderedMap Key Value} {keep : Key × Value → Bool}
    {entry : Key × Value} : entry ∈ map.retain keep ↔ entry ∈ map ∧ keep entry = true :=
  List.mem_filter

/-- How many keys hold a value. -/
def size (map : OrderedMap Key Value) : Nat := map.entries.length

/-! ## Sums over a map -/

/-- No entry is twice in the list, since no key is. -/
theorem nodup (map : OrderedMap Key Value) : map.entries.Nodup :=
  List.Nodup.of_map Prod.fst (map.sorted.imp fun below => below.ne)

/-- The measures of all entries. -/
def total (measure : Key → Value → Nat) (map : OrderedMap Key Value) : Nat :=
  (map.entries.map fun entry => measure entry.1 entry.2).sum

/-- The measures of no entries come to nothing. -/
@[simp] theorem total_empty (measure : Key → Value → Nat) :
    (empty : OrderedMap Key Value).total measure = 0 := rfl

/-- The entries are the one of a key and those of others. -/
theorem perm_of_get? {map : OrderedMap Key Value} {key : Key} {value : Value}
    (held : map.get? key = some value) :
    map.entries.Perm ((key, value) :: (map.erase key).entries) := by
  rw [List.perm_ext_iff_of_nodup map.nodup (List.nodup_cons.mpr ⟨?_, (map.erase key).nodup⟩)]
  · rintro ⟨other, another⟩
    rw [List.mem_cons, ← mem_entries, ← mem_entries, mem_erase]
    constructor
    · intro member
      by_cases same : other = key
      · subst same
        exact .inl (Prod.ext rfl (eq_of_mem member (get?_some.mp held)))
      · exact .inr ⟨member, same⟩
    · rintro (same | ⟨member, _⟩)
      · rw [same]
        exact get?_some.mp held
      · exact member
  · intro member
    exact (mem_erase.mp member).2 rfl

/-- The measures of all entries are that of the entry of a key and those of the others. -/
theorem total_of_get? {map : OrderedMap Key Value} {key : Key} {value : Value}
    (held : map.get? key = some value) (measure : Key → Value → Nat) :
    map.total measure = measure key value + (map.erase key).total measure := by
  unfold total
  rw [((perm_of_get? held).map _).sum_nat, List.map_cons, List.sum_cons]

/-- Erasing a key that holds nothing changes nothing. -/
theorem erase_of_get?_none {map : OrderedMap Key Value} {key : Key} (absent : map.get? key = none) :
    (map.erase key).entries = map.entries := by
  refine List.filter_eq_self.mpr fun entry member => ?_
  refine decide_eq_true fun same => get?_none.mp absent entry.2 ?_
  rw [← same]
  exact member

/-- Erasing what was just put under a key leaves the entries of the other keys. -/
theorem erase_insert (map : OrderedMap Key Value) (key : Key) (value : Value) :
    ((map.insert key value).erase key).entries.Perm (map.erase key).entries := by
  refine (List.perm_ext_iff_of_nodup (nodup _) (nodup _)).mpr fun entry => ?_
  rw [← mem_entries, ← mem_entries, mem_erase, mem_erase, mem_insert]
  constructor
  · rintro ⟨same | ⟨member, different⟩, other⟩
    · exact (other (by rw [same])).elim
    · exact ⟨member, different⟩
  · exact fun ⟨member, different⟩ => ⟨.inr ⟨member, different⟩, different⟩

/-- A value put under a key takes the place of the one it held. -/
theorem total_insert (map : OrderedMap Key Value) (key : Key) (value : Value)
    (measure : Key → Value → Nat) : (map.insert key value).total measure +
      (map.get? key).elim 0 (measure key) = map.total measure + measure key value := by
  have after := total_of_get? (get?_insert_self map key value) measure
  have others : ((map.insert key value).erase key).total measure = (map.erase key).total measure :=
    ((erase_insert map key value).map _).sum_nat
  rw [after, others]
  cases held : map.get? key with
  | none =>
      have same : (map.erase key).total measure = map.total measure := by
        unfold total
        rw [erase_of_get?_none held]
      rw [same, Option.elim_none]
      omega
  | some old =>
      rw [total_of_get? held measure, Option.elim_some]
      omega

/-- Counting one for each entry counts the keys. -/
theorem total_one (map : OrderedMap Key Value) : (map.total fun _ _ => 1) = map.size := by
  simp [total, size]

/-- A value put under a new key adds one to the size. -/
theorem size_insert (map : OrderedMap Key Value) (key : Key) (value : Value) :
    (map.insert key value).size + (map.get? key).elim 0 (fun _ => 1) = map.size + 1 := by
  rw [← total_one, ← total_one]
  exact total_insert map key value fun _ _ => 1

/-- Erasing a key makes no map larger. -/
theorem size_erase_le (map : OrderedMap Key Value) (key : Key) : (map.erase key).size ≤ map.size :=
  List.length_filter_le _ _

/-- Keeping some of the entries makes no map larger. -/
theorem size_retain_le (map : OrderedMap Key Value) (keep : Key × Value → Bool) :
    (map.retain keep).size ≤ map.size :=
  List.length_filter_le _ _

end OrderedMap

end Foundation
