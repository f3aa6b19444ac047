import Mathlib.Data.List.Dedup
import Mathlib.Data.List.Sort
import Mathlib.Data.String.Basic
import Renvor.Auth.Error

/-! # Scopes

A scope set is written as one space-delimited claim, which reads back as the
same set (`Renvor.ScopeSet.parseClaim_toClaim`).
-/

namespace Renvor

/-- A scope token: one to sixty-four printable characters other than the space,
the quote and the backslash. -/
structure Scope where
  text : String
  acceptable : text.toList ≠ [] ∧ text.utf8ByteSize ≤ 64 ∧ text.toList.all (fun char =>
    char == '!' || ('#' ≤ char && char ≤ '[') || (']' ≤ char && char ≤ '~')) = true
  deriving DecidableEq

/-- Make a scope of a text, or refuse it. -/
def Scope.new (value : String) : Except AuthError Scope :=
  if acceptable : value.toList ≠ [] ∧ value.utf8ByteSize ≤ 64 ∧ value.toList.all (fun char =>
      char == '!' || ('#' ≤ char && char ≤ '[') || (']' ≤ char && char ≤ '~')) = true then
    .ok ⟨value, acceptable⟩
  else .error .policyMisconfigured

instance : LinearOrder Scope :=
  LinearOrder.lift' Scope.text fun left right same => by
    cases left
    cases right
    cases same
    rfl

/-- The most scopes a set may have. -/
def ScopeSet.maxScopes : Nat := 32

/-- Scopes in order, each once. -/
structure ScopeSet where
  scopes : List Scope
  ordered : scopes.Pairwise fun first second => first.text < second.text
  bounded : scopes.length ≤ ScopeSet.maxScopes
  deriving DecidableEq

namespace ScopeSet

/-- The scopes of a list, in order and each once. -/
def sorted (scopes : List Scope) : List Scope := scopes.dedup.insertionSort (· ≤ ·)

/-- Sorted scopes stand in strictly increasing order, each of them once. -/
theorem sorted_ordered (scopes : List Scope) :
    (sorted scopes).Pairwise fun first second => first.text < second.text := by
  have ordered : (sorted scopes).Pairwise (· ≤ ·) := List.pairwise_insertionSort _ _
  have once : (sorted scopes).Nodup := by
    unfold sorted
    rw [(List.perm_insertionSort _ _).nodup_iff]
    exact List.nodup_dedup scopes
  have strict : (sorted scopes).Pairwise (· < ·) :=
    ordered.imp₂ (fun _ _ le different => lt_of_le_of_ne le different) once
  exact strict

/-- Make a set of some scopes, or refuse more of them than a set may have. -/
def new (scopes : List Scope) : Except AuthError ScopeSet :=
  if bounded : (sorted scopes).length ≤ maxScopes then
    .ok ⟨sorted scopes, sorted_ordered scopes, bounded⟩
  else .error .policyMisconfigured

/-- The space-delimited scope claim. -/
def toClaim (scopes : ScopeSet) : String :=
  " ".intercalate (scopes.scopes.map Scope.text)

/-- The set of scopes that a claim lists with blanks between them. -/
def parseClaim (claim : String) : Except AuthError ScopeSet := do
  let tokens := (claim.split ' ').toList.map fun token => token.copy
  let scopes ← (tokens.filter fun token => token ≠ "").mapM Scope.new
  new scopes

end ScopeSet

/-- The text of a scope is accepted again. -/
@[simp] theorem Scope.new_text (scope : Scope) : Scope.new scope.text = .ok scope :=
  dif_pos scope.acceptable

/-- The texts of some scopes are read back as these scopes. -/
theorem Scope.mapM_new (scopes : List Scope) :
    (scopes.map Scope.text).mapM Scope.new = .ok scopes := by
  induction scopes with
  | nil => rfl
  | cons scope scopes ih =>
      rw [List.map_cons, List.mapM_cons, Scope.new_text, ih]
      rfl

/-- No scope is the empty text. -/
theorem Scope.text_ne_empty (scope : Scope) : scope.text ≠ "" := by
  intro empty
  apply scope.acceptable.1
  rw [empty]
  rfl

/-- No scope has a blank in it, so that blanks tell the scopes of a claim apart. -/
theorem Scope.no_space (scope : Scope) : ' ' ∉ scope.text.toList := by
  intro member
  have acceptable := List.all_eq_true.mp scope.acceptable.2.2 ' ' member
  revert acceptable
  decide

/-- **The claim of a scope set reads back as the set.** -/
theorem ScopeSet.parseClaim_toClaim (scopes : ScopeSet) :
    parseClaim scopes.toClaim = .ok scopes := by
  have apart : ∀ text ∈ scopes.scopes.map Scope.text, ' ' ∉ text.toList := by
    intro text member
    obtain ⟨scope, _, rfl⟩ := List.mem_map.mp member
    exact scope.no_space
  have tokens : ((scopes.toClaim.split ' ').toList.map fun token => token.copy).filter
      (fun token => token ≠ "") = scopes.scopes.map Scope.text := by
    unfold toClaim
    rw [show " " = String.singleton ' ' from rfl, String.toList_split_intercalate apart]
    split
    next none =>
      rw [none]
      rfl
    next =>
      apply List.filter_eq_self.mpr
      intro text member
      obtain ⟨scope, _, rfl⟩ := List.mem_map.mp member
      exact decide_eq_true scope.text_ne_empty
  have same : sorted scopes.scopes = scopes.scopes := by
    have once : scopes.scopes.Nodup := scopes.ordered.imp fun less same => by
      rw [same] at less
      exact lt_irrefl _ less
    unfold sorted
    rw [once.dedup]
    exact List.Pairwise.insertionSort_eq (scopes.ordered.imp fun less => le_of_lt less)
  unfold parseClaim
  simp only [tokens, Scope.mapM_new]
  unfold new
  simp only [same, scopes.bounded, ↓reduceDIte, bind, Except.bind]

end Renvor
