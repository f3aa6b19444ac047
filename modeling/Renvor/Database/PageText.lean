import Renvor.Database.Page
import Renvor.Foundation.Quoted

/-! # What a database reads of an ordering's text

An ordering's `ORDER BY` list is read back as its terms, its seek predicate as the row-value
comparison of its columns with the placeholders bound, and its limit as the number
(`Renvor.readOrder_orderClause`, `Renvor.readComparison_render`, `Renvor.readLimit_limitClause`).
-/

namespace Renvor

open Foundation

namespace DatabaseKind

variable (kind : DatabaseKind)

/-- Reads a quoted column. -/
def readColumn (text : List Char) : Option (String × List Char) :=
  (Quoted.read kind.quote text).map fun (name, rest) => (String.ofList name, rest)

/-- Reads a column and the way it is ordered. -/
def readTerm (text : List Char) : Option (OrderTerm × List Char) := do
  let (column, rest) ← kind.readColumn text
  match Quoted.readWord " ASC".toList rest with
  | some rest => some (⟨column, .ascending⟩, rest)
  | none => (Quoted.readWord " DESC".toList rest).map fun rest => (⟨column, .descending⟩, rest)

/-- Reads an `ORDER BY` list. -/
def readOrder (clause : String) : Option (List OrderTerm) :=
  match Quoted.readAll kind.readTerm ", ".toList clause.toList with
  | some (terms, []) => some terms
  | _ => none

/-- The placeholders of so many values, bound one after the other. -/
def placeholders (firstPlaceholder count : Nat) : String :=
  ", ".intercalate ((List.range count).map fun offset =>
    kind.placeholder (firstPlaceholder + offset))

/-- Reads the comparison of some columns with as many placeholders. -/
def readComparison (firstPlaceholder : Nat) (predicate : String) : Option RowComparison :=
  match predicate.toList with
  | '(' :: text => do
      let (columns, rest) ← Quoted.readAll kind.readColumn ", ".toList text
      let bound := '(' :: (kind.placeholders firstPlaceholder columns.length).toList ++ [')']
      if rest = ") > ".toList ++ bound then some ⟨columns, true⟩
      else if rest = ") < ".toList ++ bound then some ⟨columns, false⟩
      else none
  | _ => none

end DatabaseKind

/-- Reads a limit. -/
def readLimit (clause : String) : Option Nat :=
  (Quoted.readWord "LIMIT ".toList clause.toList).map fun digits => Nat.ofDigitChars 10 digits 0

/-! ## Reading what is rendered -/

/-- A text after which a quoted name has ended. -/
def Ends (kind : DatabaseKind) (rest : List Char) : Prop := rest.head? ≠ some kind.quote

theorem toList_quoteIdentifier (kind : DatabaseKind) (identifier : String) :
    (kind.quoteIdentifier identifier).toList = Quoted.write kind.quote identifier.toList :=
  String.toList_ofList

namespace DatabaseKind

variable {kind : DatabaseKind}

theorem readColumn_quoteIdentifier (column : String) {rest : List Char} (ends : Ends kind rest) :
    kind.readColumn ((kind.quoteIdentifier column).toList ++ rest) = some (column, rest) := by
  rw [toList_quoteIdentifier, readColumn, Quoted.read_write _ ends]
  exact congrArg some (Prod.ext String.ofList_toList rfl)

theorem quoteIdentifier_ne_nil (column : String) : (kind.quoteIdentifier column).toList ≠ [] := by
  rw [toList_quoteIdentifier]
  exact List.cons_ne_nil _ _

/-- An ordering's term, as it is rendered. -/
def termText (kind : DatabaseKind) (term : OrderTerm) : List Char :=
  (kind.quoteIdentifier term.column).toList ++ ' ' :: term.direction.keyword.toList

theorem readTerm_termText (term : OrderTerm) (rest : List Char) :
    kind.readTerm (kind.termText term ++ rest) = some (term, rest) := by
  have ends : Ends kind (' ' :: term.direction.keyword.toList ++ rest) := by
    cases kind <;> exact fun same => by cases same
  obtain ⟨column, direction⟩ := term
  rw [readTerm, termText, List.append_assoc, readColumn_quoteIdentifier column ends]
  simp only [Option.bind_eq_bind, Option.bind_some]
  cases direction with
  | ascending =>
      have word : ' ' :: Direction.ascending.keyword.toList ++ rest = " ASC".toList ++ rest := rfl
      rw [word, Quoted.readWord_append]
  | descending =>
      have word : ' ' :: Direction.descending.keyword.toList ++ rest = " DESC".toList ++ rest := rfl
      rw [word, Quoted.readWord_none (by simp), Quoted.readWord_append, Option.map_some]

end DatabaseKind

/-- **An ordering's clause is read as its terms.** -/
theorem readOrder_orderClause {order : OrderBy} (kind : DatabaseKind) (some' : order.terms ≠ []) :
    kind.readOrder (orderClause order kind) = some order.terms := by
  have text : (orderClause order kind).toList =
      ", ".toList.intercalate (order.terms.map kind.termText) ++ [] := by
    rw [orderClause, OrderBy.render, String.toList_intercalate, List.map_map, List.append_nil]
    refine congrArg _ (List.map_congr_left fun term _ => ?_)
    simp [DatabaseKind.termText]
  have read : Quoted.readAll kind.readTerm ", ".toList (orderClause order kind).toList =
      some (order.terms, []) := by
    rw [text]
    exact Quoted.readAll_write (fun _ => True)
      (fun term rest _ => DatabaseKind.readTerm_termText term rest) (fun _ => trivial) trivial
      (by decide) (fun term => by simp [DatabaseKind.termText]) some'
  rw [DatabaseKind.readOrder, read]

/-- **A row-value comparison is read back.** -/
theorem readComparison_render {comparison : RowComparison} (kind : DatabaseKind)
    (firstPlaceholder : Nat) (some' : comparison.columns ≠ []) :
    kind.readComparison firstPlaceholder (comparison.render kind firstPlaceholder) =
      some comparison := by
  obtain ⟨columns, greater⟩ := comparison
  let sign := if greater then ") > ".toList else ") < ".toList
  let bound := '(' :: (kind.placeholders firstPlaceholder columns.length).toList ++ [')']
  have text : (RowComparison.render ⟨columns, greater⟩ kind firstPlaceholder).toList =
      '(' :: (", ".toList.intercalate
        (columns.map fun column => (kind.quoteIdentifier column).toList) ++ (sign ++ bound)) := by
    dsimp only [RowComparison.render, sign, bound, DatabaseKind.placeholders]
    cases greater <;> simp [String.toList_intercalate, Function.comp_def]
  have read : Quoted.readAll kind.readColumn ", ".toList (", ".toList.intercalate
      (columns.map fun column => (kind.quoteIdentifier column).toList) ++ (sign ++ bound)) =
      some (columns, sign ++ bound) := by
    refine Quoted.readAll_write (Ends kind)
      (fun column rest ends => DatabaseKind.readColumn_quoteIdentifier column ends) ?_ ?_ ?_
      DatabaseKind.quoteIdentifier_ne_nil some'
    · intro rest
      cases kind <;> exact fun same => by cases same
    · dsimp only [sign]
      cases greater <;> cases kind <;> exact fun same => by cases same
    · dsimp only [sign]
      cases greater <;> simp
  rw [DatabaseKind.readComparison, text]
  simp only [read, Option.bind_eq_bind, Option.bind_some]
  cases greater <;> simp [sign, bound]

/-- **A limit is read back.** -/
theorem readLimit_limitClause (rows : Nat) : readLimit (limitClause rows) = some rows := by
  have text : (limitClause rows).toList = "LIMIT ".toList ++ Nat.toDigits 10 rows := by
    rw [limitClause, String.toList_append, Nat.toString_eq_repr, Nat.toList_repr]
  rw [readLimit, text, Quoted.readWord_append, Option.map_some, Nat.ofDigitChars_ten_toDigits]

end Renvor
