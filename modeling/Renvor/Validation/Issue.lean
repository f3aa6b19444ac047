import Mathlib.Data.List.Sort
import Mathlib.Data.Prod.Lex
import Mathlib.Data.String.Basic
import Renvor.Kernel.Text

/-! # Issues

What is refused, where it arrived and why. Issues are reported in order, each once
(`Renvor.Validation.report_strict`).
-/

namespace Renvor.Validation

/-- Why an input was refused. -/
inductive Reason
  | typeMismatch | requiredMissing | unknownMember | tooShort | tooLong | outOfRange
  | notMultipleOf | tooFewItems | tooManyItems | notUnique | notInEnum | notConstant
  | cursorInvalid | cursorVersionUnsupported | duplicateKey | notAllowlisted
  | operatorNotAllowed | tooManyTerms | tooManyIssues
  deriving DecidableEq

def Reason.asStr : Reason → String
  | .typeMismatch => "type_mismatch"
  | .requiredMissing => "required_missing"
  | .unknownMember => "unknown_member"
  | .tooShort => "too_short"
  | .tooLong => "too_long"
  | .outOfRange => "out_of_range"
  | .notMultipleOf => "not_multiple_of"
  | .tooFewItems => "too_few_items"
  | .tooManyItems => "too_many_items"
  | .notUnique => "not_unique"
  | .notInEnum => "not_in_enum"
  | .notConstant => "not_constant"
  | .cursorInvalid => "cursor_invalid"
  | .cursorVersionUnsupported => "cursor_version_unsupported"
  | .duplicateKey => "duplicate_key"
  | .notAllowlisted => "not_allowlisted"
  | .operatorNotAllowed => "operator_not_allowed"
  | .tooManyTerms => "too_many_terms"
  | .tooManyIssues => "too_many_issues"

/-- No two reasons share a name. -/
theorem Reason.asStr_injective : Function.Injective Reason.asStr := by
  have read : Function.LeftInverse (fun name => Reason.ofNat
      (((List.range 19).map fun index => (Reason.ofNat index).asStr).idxOf name)) Reason.asStr := by
    intro reason
    cases reason <;> decide
  exact read.injective

/-- Where the input arrived. -/
inductive Location
  | path | query | header | body
  deriving DecidableEq

def maxPointerBytes : Nat := 512

/-- A structural pointer: short, and without control characters. -/
@[ext]
structure Pointer where
  text : String
  short : text.utf8ByteSize ≤ maxPointerBytes
  plain : text.toList.any isControl = false
  deriving DecidableEq

def Pointer.new (text : String) : Option Pointer :=
  if short : text.utf8ByteSize ≤ maxPointerBytes then
    if plain : text.toList.any isControl = false then some ⟨text, short, plain⟩ else none
  else none

/-- One input that failed. -/
structure Issue where
  location : Location
  pointer : Pointer
  reason : Reason
  deriving DecidableEq

/-- By pointer, then by reason. -/
def Issue.le (first second : Issue) : Prop :=
  first.pointer.text < second.pointer.text ∨
    (first.pointer.text = second.pointer.text ∧ first.reason.asStr ≤ second.reason.asStr)

instance (first second : Issue) : Decidable (first.le second) := by
  unfold Issue.le
  infer_instance

/-- A list without what repeats right before. -/
def dedup {α : Type*} [DecidableEq α] : List α → List α
  | [] => []
  | [item] => [item]
  | first :: second :: rest =>
      if first = second then dedup (second :: rest) else first :: dedup (second :: rest)

/-- Issues as they are reported: in order, each once. -/
def report (issues : List Issue) : List Issue := dedup (issues.insertionSort Issue.le)

section Dedup

variable {α : Type*} [DecidableEq α] {list : List α}

theorem mem_dedup {item : α} : item ∈ dedup list ↔ item ∈ list := by
  fun_induction dedup list with
  | case1 => rfl
  | case2 => rfl
  | case3 second rest ih => rw [ih, List.mem_cons, List.mem_cons, List.mem_cons, or_self_left]
  | case4 first second rest different ih => rw [List.mem_cons, ih, ← List.mem_cons]

/-- What is in order stands in strict order without what repeats. -/
theorem pairwise_dedup {le : α → α → Prop} (sorted : list.Pairwise le)
    (antisymm : ∀ first ∈ list, ∀ second ∈ list, le first second → le second first →
      first = second) :
    (dedup list).Pairwise fun first second => le first second ∧ first ≠ second := by
  fun_induction dedup list with
  | case1 => exact List.Pairwise.nil
  | case2 item => exact List.pairwise_singleton _ _
  | case3 second rest ih =>
      exact ih (List.pairwise_cons.mp sorted).2 fun first member other member' =>
        antisymm first (List.mem_cons_of_mem _ member) other (List.mem_cons_of_mem _ member')
  | case4 first second rest different ih =>
      obtain ⟨least, rest_sorted⟩ := List.pairwise_cons.mp sorted
      refine List.pairwise_cons.mpr ⟨fun other member => ?_, ih rest_sorted fun first member
        other member' => antisymm first (List.mem_cons_of_mem _ member) other
          (List.mem_cons_of_mem _ member')⟩
      have member := mem_dedup.mp member
      refine ⟨least other member, fun same => ?_⟩
      subst same
      rcases List.mem_cons.mp member with rfl | later
      · exact different rfl
      · refine different (antisymm first List.mem_cons_self second
          (List.mem_cons_of_mem _ List.mem_cons_self) (least second List.mem_cons_self) ?_)
        exact (List.pairwise_cons.mp rest_sorted).1 first later

end Dedup

/-- The order of issues is the order of pairs of texts. -/
theorem Issue.le_iff {first second : Issue} : first.le second ↔
    toLex (first.pointer.text, first.reason.asStr) ≤
      toLex (second.pointer.text, second.reason.asStr) := by
  rw [Prod.Lex.toLex_le_toLex]
  rfl

instance : IsTrans Issue Issue.le where
  trans _ _ _ below also := Issue.le_iff.mpr ((Issue.le_iff.mp below).trans (Issue.le_iff.mp also))

instance : Std.Total Issue.le where
  total _ _ := by
    rw [Issue.le_iff, Issue.le_iff]
    exact le_total _ _

/-- Issues that arrived in one place are told apart by their order. -/
theorem Issue.antisymm {first second : Issue} (place : first.location = second.location)
    (below : first.le second) (above : second.le first) : first = second := by
  have same := le_antisymm (Issue.le_iff.mp below) (Issue.le_iff.mp above)
  obtain ⟨pointer, reason⟩ := Prod.mk.inj (toLex.injective same)
  obtain ⟨location, ⟨_, _, _⟩, _⟩ := first
  obtain ⟨location', ⟨_, _, _⟩, _⟩ := second
  cases place
  cases pointer
  cases Reason.asStr_injective reason
  rfl

theorem mem_report {issues : List Issue} {issue : Issue} :
    issue ∈ report issues ↔ issue ∈ issues := by
  rw [report, mem_dedup, List.mem_insertionSort]

/-- **Issues of one place are reported in strict order.** -/
theorem report_strict {issues : List Issue} (place : Location)
    (one : ∀ issue ∈ issues, issue.location = place) :
    (report issues).Pairwise fun first second => first.le second ∧ first ≠ second := by
  refine pairwise_dedup (List.pairwise_insertionSort Issue.le issues) ?_
  intro first member second member' below above
  rw [List.mem_insertionSort] at member member'
  exact Issue.antisymm ((one first member).trans (one second member').symm) below above

end Renvor.Validation
