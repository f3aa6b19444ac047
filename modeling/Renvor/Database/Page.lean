import Renvor.Database.Error
import Renvor.Foundation.Paging

/-! # Keyset pagination

A declared sort resolves to an ordering that its tiebreaker makes total
(`Renvor.RowTable.orders`); a page resumes after the last row of the page before, by one
row-value comparison, which keeps the rows after its position
(`Renvor.RowTable.resumesFrom_eq`).
-/

namespace Renvor

open Foundation.Paging (Orders StrictWeak lex tied)

/-- The largest number of sort terms. -/
def maxSortTerms : Nat := 8

inductive Direction
  | ascending | descending
  deriving DecidableEq

/-- The caller-visible fields that may be sorted by, and their columns. -/
structure SortAllowlist where
  columns : List (String × String)
  tiebreaker : Option String

namespace SortAllowlist

def new : SortAllowlist := ⟨[], none⟩

def allow (list : SortAllowlist) (field column : String) : SortAllowlist :=
  { list with columns := (field, column) :: list.columns.filter fun entry => entry.1 ≠ field }

def withTiebreaker (list : SortAllowlist) (column : String) : SortAllowlist :=
  { list with tiebreaker := some column }

def column (list : SortAllowlist) (field : String) : Option String := list.columns.lookup field

end SortAllowlist

/-- One resolved ordering term. -/
structure OrderTerm where
  column : String
  direction : Direction

/-- A resolved ordering. -/
structure OrderBy where
  terms : List OrderTerm

namespace SortAllowlist

/-- The terms' columns, or the refusal of a field that is not allowed. -/
def resolve (list : SortAllowlist) : List (String × Direction) →
    Except DatabaseErrorKind (List OrderTerm)
  | [] => .ok []
  | (field, direction) :: rest => do
      match list.column field with
      | none => .error .unclassified
      | some column =>
          let rest ← resolve list rest
          return ⟨column, direction⟩ :: rest

/-- Resolves declared sort terms into a total ordering. -/
def orderBy (list : SortAllowlist) (terms : List (String × Direction)) :
    Except DatabaseErrorKind OrderBy :=
  match list.tiebreaker with
  | none => .error .unclassified
  | some tiebreaker =>
      if terms.length > maxSortTerms then .error .unclassified
      else do
        let resolved ← list.resolve terms
        if resolved.any (fun term => term.column = tiebreaker) then return ⟨resolved⟩
        else
          -- the tiebreaker runs the way of the term before it
          let direction := match resolved.getLast? with
            | none => Direction.ascending
            | some term => term.direction
          return ⟨resolved ++ [⟨tiebreaker, direction⟩]⟩

end SortAllowlist

inductive DatabaseKind
  | postgres | mySql

namespace DatabaseKind

def quote : DatabaseKind → Char
  | postgres => '\"'
  | mySql => Char.ofNat 96

/-- The identifier between quotes, its own quotes doubled. -/
def quoteIdentifier (kind : DatabaseKind) (identifier : String) : String :=
  let quote := kind.quote
  let doubled := identifier.toList.flatMap fun character =>
    if character = quote then [quote, quote] else [character]
  String.ofList (quote :: doubled ++ [quote])

def placeholder : DatabaseKind → Nat → String
  | postgres, index => "$" ++ toString index
  | mySql, _ => "?"

end DatabaseKind

/-- A row-value comparison with as many bound values as columns. -/
structure RowComparison where
  columns : List String
  greater : Bool

/-- The comparison's text. -/
def RowComparison.render (comparison : RowComparison) (kind : DatabaseKind)
    (firstPlaceholder : Nat) : String :=
  let columns := ", ".intercalate (comparison.columns.map kind.quoteIdentifier)
  let placeholders := ", ".intercalate ((List.range comparison.columns.length).map fun offset =>
    kind.placeholder (firstPlaceholder + offset))
  "(" ++ columns ++ ") " ++ (if comparison.greater then ">" else "<") ++ " (" ++ placeholders ++ ")"

/-- The comparison that resumes an ordering, where its terms run one way. -/
def OrderBy.resumes (order : OrderBy) : Except DatabaseErrorKind RowComparison :=
  match order.terms with
  | [] => .error .statementRejected
  | leading :: _ =>
      if order.terms.any (fun term => term.direction ≠ leading.direction) then
        .error .statementRejected
      else .ok {
        columns := order.terms.map OrderTerm.column
        greater := leading.direction = .ascending }

/-- Renders the `WHERE` predicate that resumes an ordering after a position. -/
def seekPredicate (order : OrderBy) (kind : DatabaseKind) (firstPlaceholder : Nat) :
    Except DatabaseErrorKind String := do
  let comparison ← order.resumes
  return comparison.render kind firstPlaceholder

/-- The keyword of a direction. -/
def Direction.keyword : Direction → String
  | ascending => "ASC"
  | descending => "DESC"

/-- Renders the `ORDER BY` list. -/
def OrderBy.render (order : OrderBy) (quote : String → String) : String :=
  ", ".intercalate (order.terms.map fun term =>
    quote term.column ++ " " ++ term.direction.keyword)

def orderClause (order : OrderBy) (kind : DatabaseKind) : String :=
  order.render kind.quoteIdentifier

def limitClause (rows : Nat) : String := "LIMIT " ++ toString rows

/-! ## What a database makes of it -/

/-- How a database compares the values of a column: a total preorder. -/
structure Collation (Value : Type) where
  le : Value → Value → Bool
  trans : ∀ first middle last, le first middle = true → le middle last = true →
    le first last = true
  total : ∀ left right, le left right = true ∨ le right left = true

namespace Collation

variable {Value : Type} (collation : Collation Value)

def less (left right : Value) : Bool := !collation.le right left

def same (left right : Value) : Bool := collation.le left right && collation.le right left

end Collation

/-- A table of rows without nulls, its columns' values compared by collations. -/
structure RowTable (Row Value : Type) where
  rows : List Row
  cell : Row → String → Value
  collation : String → Collation Value

namespace RowTable

variable {Row Value : Type} (table : RowTable Row Value)

/-- A row-value comparison: the columns left to right, the first that differ
deciding. -/
def rowLess : List String → List Value → List Value → Bool
  | column :: columns, left :: lefts, right :: rights =>
      (table.collation column).less left right ||
        (table.collation column).same left right && rowLess columns lefts rights
  | _, _, _ => false

/-- What `ORDER BY` puts before what. -/
def before : List OrderTerm → Row → Row → Bool
  | [], _, _ => false
  | term :: terms, row, other =>
      let left := table.cell row term.column
      let right := table.cell other term.column
      let collation := table.collation term.column
      (match term.direction with
        | .ascending => collation.less left right
        | .descending => collation.less right left) ||
        collation.same left right && before terms row other

/-- The values that locate a row in an ordering. -/
def position (columns : List String) (row : Row) : List Value := columns.map (table.cell row)

/-- The row satisfies the comparison, with a position's values bound to it. -/
def resumesFrom (comparison : RowComparison) (bound : List Value) (row : Row) : Bool :=
  let values := table.position comparison.columns row
  if comparison.greater then table.rowLess comparison.columns bound values
  else table.rowLess comparison.columns values bound

/-- No two rows have the same value in the column. -/
def Unique (column : String) : Prop :=
  table.rows.Pairwise fun row other =>
    (table.collation column).same (table.cell row column) (table.cell other column) = false

end RowTable

/-! ## The ordering is total -/

namespace Collation

variable {Value : Type} (collation : Collation Value)

theorem less_strictWeak : StrictWeak collation.less where
  irrefl value := by
    unfold less
    rw [(collation.total value value).elim id id]
    rfl
  trans first middle last one two := by
    unfold less at one two ⊢
    rw [Bool.not_eq_true'] at one two ⊢
    apply Bool.eq_false_iff.mpr
    intro back
    obtain forward | forward := collation.total first middle
    · rw [collation.trans last first middle back forward] at two
      cases two
    · rw [forward] at one
      cases one
  weak first middle last less := by
    unfold Collation.less at less ⊢
    rw [Bool.not_eq_true'] at less
    rw [Bool.not_eq_true', Bool.not_eq_true']
    by_contra neither
    rw [not_or, Bool.not_eq_false, Bool.not_eq_false] at neither
    rw [collation.trans last middle first neither.2 neither.1] at less
    cases less

theorem same_eq_tied (left right : Value) :
    collation.same left right = tied collation.less left right := by
  unfold same tied less
  rw [Bool.not_not, Bool.not_not, Bool.and_comm]

end Collation

namespace RowTable

variable {Row Value : Type} (table : RowTable Row Value)

/-- What one term puts before what. -/
def termBefore (term : OrderTerm) (row other : Row) : Bool :=
  match term.direction with
  | .ascending => (table.collation term.column).less (table.cell row term.column)
      (table.cell other term.column)
  | .descending => (table.collation term.column).less (table.cell other term.column)
      (table.cell row term.column)

theorem tied_termBefore (term : OrderTerm) (row other : Row) :
    tied (table.termBefore term) row other = (table.collation term.column).same
      (table.cell row term.column) (table.cell other term.column) := by
  unfold termBefore
  cases term.direction with
  | ascending => exact (Collation.same_eq_tied ..).symm
  | descending =>
      rw [Collation.same_eq_tied]
      exact Bool.and_comm ..

theorem termBefore_strictWeak (term : OrderTerm) : StrictWeak (table.termBefore term) := by
  have order := (table.collation term.column).less_strictWeak
  unfold termBefore
  cases term.direction with
  | ascending => exact ⟨fun _ => order.irrefl _, fun _ _ _ => order.trans _ _ _,
      fun _ _ _ => order.weak _ _ _⟩
  | descending => exact ⟨fun _ => order.irrefl _, fun _ _ _ one two => order.trans _ _ _ two one,
      fun _ _ _ less => (order.weak _ _ _ less).symm⟩

theorem before_cons (term : OrderTerm) (terms : List OrderTerm) :
    table.before (term :: terms) = lex (table.termBefore term) (table.before terms) := by
  funext row other
  unfold before lex
  rw [tied_termBefore]
  rfl

theorem before_strictWeak (terms : List OrderTerm) : StrictWeak (table.before terms) := by
  induction terms with
  | nil => exact {
      irrefl := fun _ => rfl
      trans := fun _ _ _ less _ => absurd less Bool.false_ne_true
      weak := fun _ _ _ less => absurd less Bool.false_ne_true }
  | cons term terms ih =>
      rw [before_cons]
      exact (table.termBefore_strictWeak term).lex ih

/-- Rows that a term tells apart are told apart. -/
theorem before_apart {terms : List OrderTerm} {term : OrderTerm} (member : term ∈ terms)
    {row other : Row} (apart : (table.collation term.column).same (table.cell row term.column)
      (table.cell other term.column) = false) :
    table.before terms row other = true ∨ table.before terms other row = true := by
  induction terms with
  | nil => cases member
  | cons first terms ih =>
      rw [before_cons, StrictWeak.lex_iff, StrictWeak.lex_iff]
      obtain forward | back | tie := @StrictWeak.cases _ (table.termBefore first) row other
      · exact .inl (.inl forward)
      · exact .inr (.inl back)
      · obtain rfl | later := List.mem_cons.mp member
        · rw [tied_termBefore, apart] at tie
          cases tie
        · have symm := StrictWeak.tied_symm tie
          exact (ih later).imp (fun less => .inr ⟨tie, less⟩) fun less => .inr ⟨symm, less⟩

/-- An ordering with a unique column orders the rows. -/
theorem orders {terms : List OrderTerm} {term : OrderTerm} (member : term ∈ terms)
    (unique : table.Unique term.column) : Orders (table.before terms) table.rows where
  toStrictWeak := table.before_strictWeak terms
  apart := unique.imp fun apart => table.before_apart member apart

end RowTable

namespace SortAllowlist

variable {list : SortAllowlist} {declared : List (String × Direction)} {order : OrderBy}

/-- **An ordering as it was requested.** The declared fields' columns in their order, each
the way that was declared, and after them the tiebreaker where none of them is its column,
the way of the last. -/
def Requested (list : SortAllowlist) (declared : List (String × Direction)) (order : OrderBy) :
    Prop :=
  ∃ tiebreaker requested, list.tiebreaker = some tiebreaker ∧
    List.Forall₂ (fun asked term => list.column asked.1 = some term.column ∧
      term.direction = asked.2) declared requested ∧
    order.terms = if tiebreaker ∈ requested.map OrderTerm.column then requested
      else requested ++ [⟨tiebreaker, (requested.getLast?.map OrderTerm.direction).getD .ascending⟩]

theorem resolve_ok {terms : List OrderTerm} (resolved : list.resolve declared = .ok terms) :
    List.Forall₂ (fun asked term => list.column asked.1 = some term.column ∧
      term.direction = asked.2) declared terms := by
  induction declared generalizing terms with
  | nil =>
      cases resolved
      exact .nil
  | cons asked declared ih =>
      unfold resolve at resolved
      split at resolved
      next => cases resolved
      next column found =>
        cases rest : list.resolve declared with
        | error kind =>
            rw [rest] at resolved
            cases resolved
        | ok others =>
            rw [rest] at resolved
            cases resolved
            exact .cons ⟨found, rfl⟩ (ih rest)

/-- **What is resolved is what was requested**, of at most eight fields. -/
theorem orderBy_requested (resolved : list.orderBy declared = .ok order) :
    list.Requested declared order ∧ declared.length ≤ maxSortTerms := by
  unfold orderBy at resolved
  split at resolved
  next => cases resolved
  next tiebreaker has =>
    split at resolved
    next => cases resolved
    next few =>
      cases columns : list.resolve declared with
      | error kind =>
          rw [columns] at resolved
          cases resolved
      | ok requested =>
          rw [columns] at resolved
          change (if _ then _ else _) = _ at resolved
          refine ⟨⟨tiebreaker, requested, has, resolve_ok columns, ?_⟩, Nat.le_of_not_lt few⟩
          have listed : requested.any (fun term => term.column = tiebreaker) = true ↔
              tiebreaker ∈ requested.map OrderTerm.column := by
            rw [List.any_eq_true, List.mem_map]
            simp only [decide_eq_true_eq]
          split at resolved
          next own =>
            cases resolved
            rw [if_pos (listed.mp own)]
          next absent =>
            cases resolved
            rw [if_neg (mt listed.mpr absent)]
            cases requested.getLast? <;> rfl

/-- A requested ordering has the tiebreaker. -/
theorem Requested.tiebreaker (requested : list.Requested declared order) :
    ∃ tiebreaker, list.tiebreaker = some tiebreaker ∧
      ∃ term ∈ order.terms, term.column = tiebreaker := by
  obtain ⟨tiebreaker, terms, has, _, whole⟩ := requested
  refine ⟨tiebreaker, has, ?_⟩
  rw [whole]
  split
  next own =>
    obtain ⟨term, member, same⟩ := List.mem_map.mp own
    exact ⟨term, member, same⟩
  next => exact ⟨_, List.mem_append_right _ (List.mem_singleton_self _), rfl⟩

/-- A requested ordering has at most one term more than were declared. -/
theorem Requested.length_le (requested : list.Requested declared order) :
    order.terms.length ≤ declared.length + 1 := by
  obtain ⟨tiebreaker, terms, _, asked, whole⟩ := requested
  rw [whole, asked.length_eq]
  split
  next => exact Nat.le_succ _
  next => rw [List.length_append, List.length_singleton]

end SortAllowlist

/-! ## The seek predicate resumes the ordering -/

theorem OrderBy.resumes_ok {order : OrderBy} {comparison : RowComparison}
    (resumes : order.resumes = .ok comparison) :
    comparison.columns = order.terms.map OrderTerm.column ∧
      ∀ term ∈ order.terms, term.direction =
        if comparison.greater then Direction.ascending else .descending := by
  unfold OrderBy.resumes at resumes
  split at resumes
  · cases resumes
  next leading rest terms =>
    split at resumes
    · cases resumes
    next uniform =>
      cases resumes
      refine ⟨rfl, fun term member => ?_⟩
      have same : term.direction = leading.direction := by
        by_contra different
        exact uniform (List.any_eq_true.mpr ⟨term, member, decide_eq_true different⟩)
      rw [same]
      cases leading.direction <;> rfl

/-- A predicate is the text of the comparison that resumes the ordering. -/
theorem seekPredicate_ok {order : OrderBy} {kind : DatabaseKind} {firstPlaceholder : Nat}
    {predicate : String} (accepted : seekPredicate order kind firstPlaceholder = .ok predicate) :
    ∃ comparison, order.resumes = .ok comparison ∧
      predicate = comparison.render kind firstPlaceholder ∧ order.terms ≠ [] := by
  cases resumes : order.resumes with
  | error kind =>
      rw [seekPredicate, resumes] at accepted
      cases accepted
  | ok comparison =>
      rw [seekPredicate, resumes] at accepted
      cases accepted
      refine ⟨comparison, rfl, rfl, fun none => ?_⟩
      rw [OrderBy.resumes, none] at resumes
      cases resumes

namespace RowTable

variable {Row Value : Type} (table : RowTable Row Value)

theorem rowLess_ascending {terms : List OrderTerm}
    (ascending : ∀ term ∈ terms, term.direction = .ascending) (last row : Row) :
    table.rowLess (terms.map OrderTerm.column) (table.position (terms.map OrderTerm.column) last)
      (table.position (terms.map OrderTerm.column) row) = table.before terms last row := by
  induction terms with
  | nil => rfl
  | cons term terms ih =>
      have here := ascending term (List.mem_cons_self ..)
      have rest := ih fun other member => ascending other (List.mem_cons_of_mem _ member)
      unfold before
      rw [here, ← rest]
      rfl

theorem rowLess_descending {terms : List OrderTerm}
    (descending : ∀ term ∈ terms, term.direction = .descending) (last row : Row) :
    table.rowLess (terms.map OrderTerm.column) (table.position (terms.map OrderTerm.column) row)
      (table.position (terms.map OrderTerm.column) last) = table.before terms last row := by
  induction terms with
  | nil => rfl
  | cons term terms ih =>
      have here := descending term (List.mem_cons_self ..)
      have rest := ih fun other member => descending other (List.mem_cons_of_mem _ member)
      have swap : (table.collation term.column).same (table.cell last term.column)
          (table.cell row term.column) = (table.collation term.column).same
          (table.cell row term.column) (table.cell last term.column) := Bool.and_comm ..
      unfold before
      dsimp only
      rw [here, ← rest, swap]
      rfl

/-- **The rows that a seek predicate keeps are those after the position.** -/
theorem resumesFrom_eq {order : OrderBy} {comparison : RowComparison}
    (resumes : order.resumes = .ok comparison) (last row : Row) :
    table.resumesFrom comparison (table.position (order.terms.map OrderTerm.column) last) row =
      table.before order.terms last row := by
  obtain ⟨columns, directions⟩ := OrderBy.resumes_ok resumes
  unfold resumesFrom
  rw [columns]
  dsimp only
  split
  next greater =>
    rw [if_pos greater] at directions
    exact table.rowLess_ascending directions last row
  next less =>
    rw [if_neg less] at directions
    exact table.rowLess_descending directions last row

end RowTable

end Renvor
