import Mathlib.Data.List.DropRight
import Mathlib.Tactic.Common

/-! # The last mark of a list

A list cut at the last of its elements that are marks. What stands after it is the longest
end without a mark (`Foundation.Marks.cutLast_some`, `Foundation.Marks.cutLast_none`).
-/

namespace Foundation.Marks

variable {α : Type*} {marks : α → Bool} {items front back : List α}

/-- What stands before and after the last mark. -/
def cutLast (marks : α → Bool) : List α → Option (List α × List α)
  | [] => none
  | item :: rest => match cutLast marks rest with
      | some (front, back) => some (item :: front, back)
      | none => if marks item then some ([], rest) else none

theorem cutLast_none (cut : cutLast marks items = none) : ∀ item ∈ items, marks item = false := by
  induction items with
  | nil => exact fun item member => (List.not_mem_nil member).elim
  | cons item rest ih =>
      unfold cutLast at cut
      split at cut
      next => cases cut
      next whole =>
        split at cut
        next => cases cut
        next plain =>
          intro other member
          rcases List.mem_cons.mp member with rfl | later
          · exact eq_false_of_ne_true plain
          · exact ih whole other later

theorem cutLast_some (cut : cutLast marks items = some (front, back)) :
    ∃ mark, marks mark = true ∧ items = front ++ mark :: back ∧
      ∀ item ∈ back, marks item = false := by
  induction items generalizing front with
  | nil => cases cut
  | cons item rest ih =>
      unfold cutLast at cut
      split at cut
      next front' back' found =>
        cases cut
        obtain ⟨mark, marked, rfl, after⟩ := ih found
        exact ⟨mark, marked, rfl, after⟩
      next whole =>
        split at cut
        next marked =>
          cases cut
          exact ⟨item, marked, rfl, cutLast_none whole⟩
        next => cases cut

/-- The longest end without a mark is what stands after the last one. -/
theorem rtakeWhile_mark {mark : α} (marked : marks mark = true)
    (clean : ∀ item ∈ back, marks item = false) :
    (front ++ mark :: back).rtakeWhile (fun item => !marks item) = back := by
  have ends : (front ++ mark :: back).reverse = back.reverse ++ (mark :: front.reverse) := by
    simp
  rw [List.rtakeWhile, ends, List.takeWhile_append_of_pos
    (fun item member => by rw [clean item (List.mem_reverse.mp member)]; rfl),
    List.takeWhile_cons_of_neg (by rw [marked]; decide), List.append_nil, List.reverse_reverse]

/-- The longest end without a mark of a list that ends without one. -/
theorem rtakeWhile_append (clean : ∀ item ∈ back, marks item = false) :
    (front ++ back).rtakeWhile (fun item => !marks item) =
      front.rtakeWhile (fun item => !marks item) ++ back := by
  rw [List.rtakeWhile, List.reverse_append, List.takeWhile_append_of_pos
    (fun item member => by rw [clean item (List.mem_reverse.mp member)]; rfl),
    List.reverse_append, List.reverse_reverse]
  rfl

theorem length_rtakeWhile_le : (items.rtakeWhile fun item => !marks item).length ≤ items.length :=
  (List.rtakeWhile_suffix _ items).length_le

/-- A list with a mark is longer than its longest end without one. -/
theorem length_rtakeWhile_lt {mark : α} (member : mark ∈ items) (marked : marks mark = true) :
    (items.rtakeWhile fun item => !marks item).length < items.length := by
  refine lt_of_le_of_ne length_rtakeWhile_le fun same => ?_
  have whole : items.rtakeWhile (fun item => !marks item) = items :=
    (List.rtakeWhile_suffix _ items).eq_of_length same
  have clean := List.rtakeWhile_eq_self_iff.mp whole mark member
  rw [marked] at clean
  cases clean

end Foundation.Marks
