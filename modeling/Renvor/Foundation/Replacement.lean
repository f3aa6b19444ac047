import Mathlib.Data.List.Infix
import Mathlib.Tactic.Common

/-! # Replacement of a pattern by a marker

A text is a list of cells, each of which reads as a letter. Every occurrence of a pattern is
replaced from left to right. What a replacement keeps it keeps in runs that stood in the text
(`Foundation.Replacement.kept_stood`), none of which reads as the pattern
(`Foundation.Replacement.kept_absent`), and it does the same whatever else the cells carry
(`Foundation.Replacement.map_replace`).
-/

namespace Foundation.Replacement

variable {α β γ : Type*} [DecidableEq γ]

/-- The text with the pattern replaced, some cells of an occurrence still to be skipped. -/
def replaceFrom (read : α → γ) (pattern : List γ) (marker : List α) : Nat → List α → List α
  | _, [] => []
  | skip + 1, _ :: rest => replaceFrom read pattern marker skip rest
  | 0, cell :: rest =>
      if pattern.isPrefixOf ((cell :: rest).map read) then
        marker ++ replaceFrom read pattern marker (pattern.length - 1) rest
      else cell :: replaceFrom read pattern marker 0 rest

/-- The text with every occurrence of the pattern replaced. -/
def replace (read : α → γ) (pattern : List γ) (marker : List α) (text : List α) : List α :=
  replaceFrom read pattern marker 0 text

variable {read : α → γ} {pattern : List γ} {marker text run : List α}

/-- A replacement looks at what the cells read only. -/
theorem map_replaceFrom {read' : β → γ} (carry : α → β) (reads : ∀ cell, read' (carry cell) = read cell)
    (skip : Nat) : (replaceFrom read pattern marker skip text).map carry =
      replaceFrom read' pattern (marker.map carry) skip (text.map carry) := by
  induction text generalizing skip with
  | nil => cases skip <;> rfl
  | cons cell rest ih =>
      cases skip with
      | succ skip => exact ih skip
      | zero =>
          have same : ((cell :: rest).map carry).map read' = (cell :: rest).map read := by
            rw [List.map_map]
            exact List.map_congr_left fun cell _ => reads cell
          rw [List.map_cons, replaceFrom, replaceFrom, ← List.map_cons, same]
          split
          · rw [List.map_append, ih]
          · rw [List.map_cons, ih]

theorem map_replace {read' : β → γ} (carry : α → β) (reads : ∀ cell, read' (carry cell) = read cell) :
    (replace read pattern marker text).map carry =
      replace read' pattern (marker.map carry) (text.map carry) :=
  map_replaceFrom carry reads 0

/-- A text without the pattern stays. -/
theorem replace_absent (absent : ¬pattern <:+: text.map read) :
    replace read pattern marker text = text := by
  unfold replace
  induction text with
  | nil => rfl
  | cons cell rest ih =>
      rw [List.map_cons, List.infix_cons_iff, not_or] at absent
      rw [replaceFrom, if_neg, ih absent.2]
      exact fun first => absent.1 (List.isPrefixOf_iff_prefix.mp first)

section
variable {kept : α → Prop}

/-- A run of kept cells lies after a marker, not in it. -/
theorem kept_append (marks : ∀ cell ∈ marker, ¬kept cell) (keeps : ∀ cell ∈ run, kept cell)
    (inside : run <:+: marker ++ text) : run <:+: text := by
  induction marker with
  | nil => exact inside
  | cons mark rest ih =>
      rcases List.infix_cons_iff.mp inside with front | later
      · cases run with
        | nil => exact List.nil_infix
        | cons cell more =>
            obtain ⟨same, _⟩ := List.cons_prefix_cons.mp front
            exact (marks mark List.mem_cons_self (same ▸ keeps cell List.mem_cons_self)).elim
      · exact ih (fun cell member => marks cell (List.mem_cons_of_mem mark member)) later

variable (marks : ∀ cell ∈ marker, ¬kept cell) (filled : marker ≠ [])
include marks filled

/-- A run of kept cells at the front stood there before, and does not read as the
pattern. -/
theorem kept_prefix (keeps : ∀ cell ∈ run, kept cell)
    (front : run <+: replaceFrom read pattern marker 0 text) :
    run <+: text ∧ (pattern ≠ [] → run.map read ≠ pattern) := by
  induction text generalizing run with
  | nil =>
      cases List.prefix_nil.mp front
      exact ⟨List.prefix_rfl, fun some same => some same.symm⟩
  | cons cell rest ih =>
      cases run with
      | nil => exact ⟨List.nil_prefix, fun some same => some same.symm⟩
      | cons first more =>
          rw [replaceFrom] at front
          split at front
          next =>
            obtain ⟨mark, others, rfl⟩ := List.exists_cons_of_ne_nil filled
            obtain ⟨same, _⟩ := List.cons_prefix_cons.mp front
            exact (marks mark List.mem_cons_self (same ▸ keeps first List.mem_cons_self)).elim
          next absent =>
            obtain ⟨rfl, later⟩ := List.cons_prefix_cons.mp front
            have whole := (ih (fun cell member => keeps cell (List.mem_cons_of_mem first member)) later).1
            have run : first :: more <+: first :: rest := List.cons_prefix_cons.mpr ⟨rfl, whole⟩
            refine ⟨run, fun _ same => absent (List.isPrefixOf_iff_prefix.mpr ?_)⟩
            exact same ▸ run.map read

theorem kept_from {skip : Nat} (keeps : ∀ cell ∈ run, kept cell)
    (inside : run <:+: replaceFrom read pattern marker skip text) :
    run <:+: text ∧ (pattern ≠ [] → run.map read ≠ pattern) := by
  induction text generalizing skip with
  | nil =>
      have nothing : replaceFrom read pattern marker skip [] = [] := by cases skip <;> rfl
      cases List.infix_nil.mp (nothing ▸ inside)
      exact ⟨List.nil_infix, fun some same => some same.symm⟩
  | cons cell rest ih =>
      have further {skip : Nat} (inside : run <:+: replaceFrom read pattern marker skip rest) :
          run <:+: cell :: rest ∧ (pattern ≠ [] → run.map read ≠ pattern) := by
        obtain ⟨whole, other⟩ := ih inside
        exact ⟨List.infix_cons whole, other⟩
      cases skip with
      | succ skip => exact further inside
      | zero =>
          rw [replaceFrom] at inside
          split at inside
          next => exact further (kept_append marks keeps inside)
          next absent =>
            rcases List.infix_cons_iff.mp inside with front | later
            · have front : run <+: replaceFrom read pattern marker 0 (cell :: rest) := by
                rw [replaceFrom, if_neg absent]
                exact front
              obtain ⟨whole, other⟩ := kept_prefix marks filled keeps front
              exact ⟨whole.isInfix, other⟩
            · exact further later

/-- **A run that is kept stood in the text.** -/
theorem kept_stood (keeps : ∀ cell ∈ run, kept cell)
    (inside : run <:+: replace read pattern marker text) : run <:+: text :=
  (kept_from marks filled keeps inside).1

/-- **No run that is kept reads as the pattern.** -/
theorem kept_absent (some : pattern ≠ []) (keeps : ∀ cell ∈ run, kept cell)
    (inside : run <:+: replace read pattern marker text) : run.map read ≠ pattern :=
  (kept_from marks filled keeps inside).2 some

end

end Foundation.Replacement
