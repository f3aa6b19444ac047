import Mathlib.Tactic.Common

/-! # Parts between marks

A part with no mark in it ends where the first mark stands, so that parts that are
each led by a mark are told apart (`Foundation.Delimited.led_inj`).
-/

namespace Foundation.Delimited

variable {α : Type*} {mark : α} {front front' back back' : List α}

/-- **The first mark is found again.** -/
theorem append_mark_inj (absent : mark ∉ front) (absent' : mark ∉ front')
    (same : front ++ mark :: back = front' ++ mark :: back') : front = front' ∧ back = back' := by
  induction front generalizing front' with
  | nil =>
      cases front' with
      | nil => exact ⟨rfl, (List.cons.inj same).2⟩
      | cons first rest =>
          cases (List.cons.inj same).1
          exact (absent' List.mem_cons_self).elim
  | cons first rest ih =>
      cases front' with
      | nil =>
          cases (List.cons.inj same).1
          exact (absent List.mem_cons_self).elim
      | cons first' rest' =>
          obtain ⟨head, tail⟩ := List.cons.inj same
          obtain ⟨fronts, backs⟩ := ih (fun held => absent (List.mem_cons_of_mem _ held))
            (fun held => absent' (List.mem_cons_of_mem _ held)) tail
          exact ⟨by rw [head, fronts], backs⟩

variable (mark) in
/-- The parts, a mark before each. -/
def led (parts : List (List α)) : List α := parts.flatMap (mark :: ·)

@[simp] theorem led_nil : led mark ([] : List (List α)) = [] := rfl

@[simp] theorem led_cons (part : List α) (rest : List (List α)) :
    led mark (part :: rest) = mark :: (part ++ led mark rest) := List.flatMap_cons

/-- A part ends before what is led by a mark. -/
theorem part_ends {part part' : List α} {rest rest' : List (List α)} (absent : mark ∉ part)
    (absent' : mark ∉ part') (same : part ++ led mark rest = part' ++ led mark rest') :
    part = part' ∧ led mark rest = led mark rest' := by
  cases rest with
  | nil =>
      cases rest' with
      | nil => simpa using same
      | cons first rest' =>
          rw [led_nil, List.append_nil] at same
          exact (absent (same ▸ by simp)).elim
  | cons first rest =>
      cases rest' with
      | nil =>
          rw [led_nil, List.append_nil] at same
          exact (absent' (same ▸ by simp)).elim
      | cons first' rest' =>
          simp only [led_cons] at same ⊢
          obtain ⟨parts, others⟩ := append_mark_inj absent absent' same
          exact ⟨parts, by rw [others]⟩

/-- **Parts that are led by marks are told apart.** -/
theorem led_inj {parts parts' : List (List α)} (absent : ∀ part ∈ parts, mark ∉ part)
    (absent' : ∀ part ∈ parts', mark ∉ part) (same : led mark parts = led mark parts') :
    parts = parts' := by
  induction parts generalizing parts' with
  | nil =>
      cases parts' with
      | nil => rfl
      | cons part rest => exact nomatch same
  | cons part rest ih =>
      cases parts' with
      | nil => exact nomatch same
      | cons part' rest' =>
          simp only [led_cons, List.cons.injEq, true_and] at same
          obtain ⟨first, others⟩ := part_ends (absent _ List.mem_cons_self)
            (absent' _ List.mem_cons_self) same
          rw [first, ih (fun part held => absent part (List.mem_cons_of_mem _ held))
            (fun part held => absent' part (List.mem_cons_of_mem _ held)) others]

end Foundation.Delimited
