import Mathlib.Data.Multiset.Count
import Mathlib.Data.Multiset.MapFold

/-! # Rows updated in place

A table is a list of rows in whatever order they are scanned. An update changes
the rows that match a predicate and leaves the others where they are
(`Foundation.updateWhere`); where the predicate matches one row, the update is
the exchange of that row (`Foundation.updateWhere_split`).
-/

namespace Foundation

universe u v w

variable {Row : Type u} {Key : Type v}

/-- Changes the rows that match. -/
def updateWhere (matched : Row → Bool) (change : Row → Row) (rows : List Row) : List Row :=
  rows.map fun row => if matched row then change row else row

variable {matched : Row → Bool} {change : Row → Row} {rows : List Row}

theorem mem_updateWhere {row : Row} :
    row ∈ updateWhere matched change rows ↔
      (∃ before ∈ rows, matched before = true ∧ row = change before) ∨
        (row ∈ rows ∧ matched row = false) := by
  simp only [updateWhere, List.mem_map]
  constructor
  · rintro ⟨before, listed, rfl⟩
    split
    · next hit => exact Or.inl ⟨before, listed, hit, rfl⟩
    · next miss => exact Or.inr ⟨listed, Bool.eq_false_iff.mpr miss⟩
  · rintro (⟨before, listed, hit, rfl⟩ | ⟨listed, miss⟩)
    · exact ⟨before, listed, by rw [if_pos hit]⟩
    · exact ⟨row, listed, by simp [miss]⟩

/-- An update that matches nothing changes nothing. -/
theorem updateWhere_none (none : ∀ row ∈ rows, matched row = false) :
    updateWhere matched change rows = rows := by
  rw [updateWhere, List.map_congr_left (g := id), List.map_id]
  intro row listed
  simp [none row listed]

/-- An update that keeps a key keeps the list of keys. -/
theorem map_updateWhere {key : Row → Key} (kept : ∀ row, matched row = true →
    key (change row) = key row) : (updateWhere matched change rows).map key = rows.map key := by
  rw [updateWhere, List.map_map]
  apply List.map_congr_left
  intro row _
  simp only [Function.comp_apply]
  split
  · next hit => exact kept row hit
  · rfl

/-- An update of one row exchanges it. -/
theorem updateWhere_split {front rest : List Row} {row : Row} (hit : matched row = true)
    (before : ∀ other ∈ front, matched other = false)
    (after : ∀ other ∈ rest, matched other = false) :
    updateWhere matched change (front ++ row :: rest) = front ++ change row :: rest := by
  rw [updateWhere, List.map_append, List.map_cons, if_pos hit]
  congr 1
  · exact updateWhere_none before
  · congr 1
    exact updateWhere_none after

/-- An update of encoded rows is an update of the rows. -/
theorem updateWhere_map {Code : Type w} {encode : Row → Code} {chosen : Code → Bool}
    {alter : Code → Code} (same : ∀ row, chosen (encode row) = matched row)
    (alike : ∀ row ∈ rows, matched row = true → alter (encode row) = encode (change row)) :
    updateWhere chosen alter (rows.map encode) = (updateWhere matched change rows).map encode := by
  rw [updateWhere, updateWhere, List.map_map, List.map_map]
  apply List.map_congr_left
  intro row listed
  simp only [Function.comp_apply, same]
  split
  · next hit => exact alike row listed hit
  · rfl

/-! ## The first rows that match -/

/-- Changes the first rows that match, at most so many. -/
def updateFirst (matched : Row → Bool) (change : Row → Row) : Nat → List Row → List Row
  | _, [] => []
  | 0, rows => rows
  | count + 1, row :: rest =>
      if matched row then change row :: updateFirst matched change count rest
      else row :: updateFirst matched change (count + 1) rest

theorem updateFirst_zero (rows : List Row) : updateFirst matched change 0 rows = rows := by
  cases rows <;> rfl

theorem map_updateFirst {Key : Type w} {key : Row → Key}
    (kept : ∀ row, matched row = true → key (change row) = key row) (count : Nat)
    (rows : List Row) : (updateFirst matched change count rows).map key = rows.map key := by
  induction rows generalizing count with
  | nil => rfl
  | cons row rows ih =>
      cases count with
      | zero => rw [updateFirst_zero]
      | succ count =>
          unfold updateFirst
          by_cases hit : matched row = true
          · rw [if_pos hit, List.map_cons, List.map_cons, ih, kept row hit]
          · rw [if_neg hit, List.map_cons, List.map_cons, ih]

/-- **The first rows that match are exchanged**, as many as there are or as
asked for. -/
theorem updateFirst_split (count : Nat) (rows : List Row) :
    ∃ batch rest : Multiset Row, (rows : Multiset Row) = batch + rest ∧
      (updateFirst matched change count rows : Multiset Row) = batch.map change + rest ∧
      (∀ row ∈ batch, matched row = true) ∧ batch.card = min count (rows.countP matched) := by
  induction rows generalizing count with
  | nil => exact ⟨0, 0, rfl, by simp [updateFirst], by simp, by simp⟩
  | cons row rows ih =>
      cases count with
      | zero => exact ⟨0, (row :: rows : List Row), by simp, by simp [updateFirst_zero], by simp,
          by simp⟩
      | succ count =>
          by_cases hit : matched row = true
          · obtain ⟨batch, rest, before, after, every, card⟩ := ih count
            refine ⟨row ::ₘ batch, rest, ?_, ?_, ?_, ?_⟩
            · rw [← Multiset.cons_coe, before, Multiset.cons_add]
            · rw [updateFirst, if_pos hit, ← Multiset.cons_coe, after, Multiset.map_cons,
                Multiset.cons_add]
            · intro other member
              rcases Multiset.mem_cons.mp member with rfl | later
              · exact hit
              · exact every other later
            · rw [Multiset.card_cons, card, List.countP_cons_of_pos hit]
              omega
          · obtain ⟨batch, rest, before, after, every, card⟩ := ih (count + 1)
            refine ⟨batch, row ::ₘ rest, ?_, ?_, every, ?_⟩
            · rw [← Multiset.cons_coe, before, Multiset.add_cons]
            · rw [updateFirst, if_neg hit, ← Multiset.cons_coe, after, Multiset.add_cons]
            · rw [card, List.countP_cons_of_neg hit]

theorem updateFirst_map {Code : Type w} {encode : Row → Code} {chosen : Code → Bool}
    {alter : Code → Code} (same : ∀ row, chosen (encode row) = matched row) (count : Nat)
    (rows : List Row)
    (alike : ∀ row ∈ rows, matched row = true → alter (encode row) = encode (change row)) :
    updateFirst chosen alter count (rows.map encode) =
      (updateFirst matched change count rows).map encode := by
  induction rows generalizing count with
  | nil => rfl
  | cons row rows ih =>
      have later := fun other listed => alike other (List.mem_cons_of_mem row listed)
      cases count with
      | zero => simp only [updateFirst_zero]
      | succ count =>
          simp only [List.map_cons, updateFirst, same]
          by_cases hit : matched row = true
          · rw [if_pos hit, if_pos hit, alike row List.mem_cons_self hit, ih count later]
            rfl
          · rw [if_neg hit, if_neg hit, ih (count + 1) later]
            rfl

/-! ## Rows with distinct keys -/

/-- A row of a table with distinct keys stands among rows with other keys. -/
theorem split_of_nodup {key : Row → Key} (distinct : (rows.map key).Nodup) {row : Row}
    (listed : row ∈ rows) :
    ∃ front rest, rows = front ++ row :: rest ∧ (∀ other ∈ front, key other ≠ key row) ∧
      ∀ other ∈ rest, key other ≠ key row := by
  obtain ⟨front, rest, rfl⟩ := List.append_of_mem listed
  rw [List.map_append, List.map_cons, List.nodup_append, List.nodup_cons] at distinct
  refine ⟨front, rest, rfl, ?_, ?_⟩
  · intro other before same
    exact distinct.2.2 _ (List.mem_map_of_mem before) _ List.mem_cons_self same
  · intro other after same
    exact distinct.2.1.1 (same ▸ List.mem_map_of_mem after)

/-- **An update that matches one row of a table with distinct keys** exchanges
that row and affects one. -/
theorem updateWhere_one (change : Row → Row) {key : Row → Key} (distinct : (rows.map key).Nodup) {row : Row}
    (listed : row ∈ rows) (hit : matched row = true)
    (only : ∀ other ∈ rows, matched other = true → key other = key row) :
    ∃ rest : Multiset Row, (rows : Multiset Row) = row ::ₘ rest ∧
      (updateWhere matched change rows : Multiset Row) = change row ::ₘ rest ∧
      (rows.filter matched).length = 1 := by
  obtain ⟨front, rest, rfl, before, after⟩ := split_of_nodup distinct listed
  have misses : ∀ other ∈ front ++ row :: rest, key other ≠ key row → matched other = false :=
    fun other among different => Bool.eq_false_iff.mpr fun hits => different (only other among hits)
  have front_misses : ∀ other ∈ front, matched other = false := fun other among =>
    misses other (by simp [among]) (before other among)
  have rest_misses : ∀ other ∈ rest, matched other = false := fun other among =>
    misses other (by simp [among]) (after other among)
  refine ⟨(front ++ rest : List Row), ?_, ?_, ?_⟩
  · rw [Multiset.cons_coe]
    exact Multiset.coe_eq_coe.mpr List.perm_middle
  · rw [updateWhere_split hit front_misses rest_misses, Multiset.cons_coe]
    exact Multiset.coe_eq_coe.mpr List.perm_middle
  · have alone : ∀ {others : List Row}, (∀ other ∈ others, matched other = false) →
        others.filter matched = [] := fun misses =>
      List.filter_eq_nil_iff.mpr fun other among => by simp [misses other among]
    rw [List.filter_append, List.filter_cons_of_pos hit, alone front_misses, alone rest_misses]
    rfl

/-- Rows with distinct keys are the same where their keys are. -/
theorem eq_of_key {key : Row → Key} (distinct : (rows.map key).Nodup) {first second : Row}
    (listed : first ∈ rows) (also : second ∈ rows) (same : key first = key second) :
    first = second :=
  List.inj_on_of_nodup_map distinct listed also same

/-- At most one row has one key. -/
theorem length_filter_le_one {key : Row → Key} (distinct : (rows.map key).Nodup) {value : Key}
    (one : ∀ row, matched row = true → key row = value) : (rows.filter matched).length ≤ 1 := by
  have same : (rows.filter matched).map key =
      List.replicate (rows.filter matched).length value := by
    rw [List.eq_replicate_iff]
    refine ⟨List.length_map _, fun held member => ?_⟩
    obtain ⟨row, found, rfl⟩ := List.mem_map.mp member
    exact one row (List.mem_filter.mp found).2
  have apart : ((rows.filter matched).map key).Nodup :=
    distinct.sublist (List.filter_sublist.map key)
  rw [same] at apart
  exact List.nodup_replicate.mp apart

/-! ## How many rows have a property -/

section Count

variable {holds other : Row → Prop}

open Classical in
/-- How many rows have a property. -/
noncomputable def countOf (holds : Row → Prop) (rows : List Row) : Nat :=
  rows.countP fun row => decide (holds row)

theorem countOf_decide (matched : Row → Bool) (rows : List Row) :
    countOf (fun row => matched row = true) rows = rows.countP matched := by
  unfold countOf
  congr 1
  funext row
  exact Bool.decide_eq_true

theorem countOf_append (holds : Row → Prop) (rows later : List Row) :
    countOf holds (rows ++ later) = countOf holds rows + countOf holds later :=
  List.countP_append

theorem countOf_map {Before : Type w} (change : Before → Row) (rows : List Before) :
    countOf holds (rows.map change) = countOf (fun row => holds (change row)) rows :=
  List.countP_map

theorem countOf_le_length (holds : Row → Prop) (rows : List Row) : countOf holds rows ≤ rows.length :=
  List.countP_le_length

theorem countOf_eq_zero (none : ∀ row ∈ rows, ¬ holds row) : countOf holds rows = 0 := by
  classical
  apply List.countP_eq_zero.mpr
  intro row member held
  exact none row member (of_decide_eq_true held)

theorem countOf_mono (weaker : ∀ row ∈ rows, holds row → other row) :
    countOf holds rows ≤ countOf other rows := by
  classical
  apply List.countP_mono_left
  intro row member held
  exact decide_eq_true (weaker row member (of_decide_eq_true held))

/-- A property that one row lost. -/
theorem countOf_lt (weaker : ∀ row ∈ rows, holds row → other row) {row : Row} (member : row ∈ rows)
    (had : other row) (lost : ¬ holds row) : countOf holds rows < countOf other rows := by
  obtain ⟨front, rest, rfl⟩ := List.append_of_mem member
  rw [List.append_cons, countOf_append, countOf_append, countOf_append, countOf_append]
  have before : countOf holds front ≤ countOf other front :=
    countOf_mono fun row among => weaker row (by simp [among])
  have after : countOf holds rest ≤ countOf other rest :=
    countOf_mono fun row among => weaker row (by simp [among])
  have here : countOf holds [row] = 0 := countOf_eq_zero (by simpa using lost)
  have there : countOf other [row] = 1 := by simp [countOf, had]
  omega

theorem countOf_perm (holds : Row → Prop) {rows later : List Row} (same : rows.Perm later) :
    countOf holds rows = countOf holds later :=
  same.countP_eq _

theorem countOf_filter (holds : Row → Prop) (matched : Row → Bool) (rows : List Row) :
    countOf holds (rows.filter matched) =
      countOf (fun row => holds row ∧ matched row = true) rows := by
  unfold countOf
  rw [List.countP_filter]
  apply List.countP_congr
  simp

/-- All but the first rows are as many as come after them. -/
theorem countOf_not_mem_take (key : Row → Key) (count : Nat) (rows : List Row) :
    countOf (fun row => key row ∉ (rows.take count).map key) rows ≤ rows.length - count := by
  have first : countOf (fun row => key row ∉ (rows.take count).map key) (rows.take count) = 0 :=
    countOf_eq_zero fun row member absent => absent (List.mem_map_of_mem member)
  have rest := countOf_le_length (fun row => key row ∉ (rows.take count).map key) (rows.drop count)
  have split := countOf_append (fun row => key row ∉ (rows.take count).map key) (rows.take count)
    (rows.drop count)
  rw [List.take_append_drop, first, Nat.zero_add] at split
  rw [split, ← List.length_drop]
  exact rest

end Count

end Foundation
