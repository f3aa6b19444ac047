import Renvor.Database.Keyset
import Renvor.Database.PageText

/-! # Reading page by page

A page's statement has an ordering's clause, its seek predicate and a limit. The position
after the last row of the page before is bound to the predicate's placeholders, from the row
itself or from the cursor it was issued as. Read so, every row is visited once and in the
order that was requested (`Renvor.pages_visit_once`).
-/

namespace Renvor

open Foundation.Paging (Paged Orders)

/-- How an application has the values of its columns in a keyset. -/
structure ValueCodec (Value : Type) where
  encode : String → Value → List Byte
  decode : String → List Byte → Option Value
  reads : ∀ column value, decode column (encode column value) = some value

/-- The values of a keyset, column by column. -/
def ValueCodec.values {Value : Type} (codec : ValueCodec Value) :
    List String → List (List Byte) → Option (List Value)
  | [], [] => some []
  | column :: columns, bytes :: rest => do
      let value ← codec.decode column bytes
      let others ← codec.values columns rest
      return value :: others
  | _, _ => none

namespace RowTable

variable {Row Value : Type} (table : RowTable Row Value)

/-- The position after a row in an ordering. -/
def after (order : OrderBy) (row : Row) : List Value :=
  table.position (order.terms.map OrderTerm.column) row

/-- The keyset of the position after a row. -/
def keyset (codec : ValueCodec Value) (order : OrderBy) (fingerprint : Nat)
    (bounded : fingerprint < 2 ^ 64) (row : Row) : Keyset :=
  ⟨fingerprint, order.terms.map fun term => codec.encode term.column (table.cell row term.column),
    bounded⟩

/-- The position that the cursor issued after a row is read as. -/
def carried (codec : ValueCodec Value) (order : OrderBy) (fingerprint : Nat)
    (bounded : fingerprint < 2 ^ 64) (row : Row) : Option (List Value) :=
  match Keyset.fromCursor (table.keyset codec order fingerprint bounded row).toCursor.encode
      fingerprint bounded with
  | .error _ => none
  | .ok keyset => codec.values (order.terms.map OrderTerm.column) keyset.values

/-- **The pages read by an ordering's statements.** What the database makes of the clause, the
predicate and the limit, with the position after the last row bound to the predicate, until
a page is short. -/
def Pages (kind : DatabaseKind) (firstPlaceholder : Nat) (clause predicate limit : String)
    (wanted : Row → Bool) (bound : Row → Option (List Value)) (pages : List (List Row)) : Prop :=
  ∃ terms comparison size, kind.readOrder clause = some terms ∧
    kind.readComparison firstPlaceholder predicate = some comparison ∧
    readLimit limit = some size ∧
    Paged (table.before terms)
      (fun last row => (bound last).any fun position => table.resumesFrom comparison position row)
      table.rows wanted size none pages

variable {table}

/-- The values of a row are read from its keyset. -/
theorem values_keyset (codec : ValueCodec Value) (terms : List OrderTerm) (row : Row) :
    codec.values (terms.map OrderTerm.column)
      (terms.map fun term => codec.encode term.column (table.cell row term.column)) =
      some (table.position (terms.map OrderTerm.column) row) := by
  induction terms with
  | nil => rfl
  | cons term terms ih =>
      rw [List.map_cons, List.map_cons, ValueCodec.values, codec.reads, ih]
      rfl

/-- **A cursor carries the position after a row**, where the position fits it. -/
theorem carried_eq {order : OrderBy} (few : order.terms.length ≤ maxSortTerms + 1)
    {codec : ValueCodec Value} {fingerprint : Nat} {bounded : fingerprint < 2 ^ 64} {row : Row}
    (fits : (table.keyset codec order fingerprint bounded row).size ≤ 767) :
    table.carried codec order fingerprint bounded row = some (table.after order row) := by
  have values : (table.keyset codec order fingerprint bounded row).values.length ≤
      maxSortTerms + 1 := by
    rw [keyset, List.length_map]
    exact few
  have read : Keyset.fromCursor (table.keyset codec order fingerprint bounded row).toCursor.encode
      fingerprint bounded = .ok (table.keyset codec order fingerprint bounded row) :=
    (Keyset.fromCursor_toCursor_iff values).mpr fits
  rw [carried, read]
  exact values_keyset codec order.terms row

/-- What is read by the texts of an ordering is read by its terms. -/
theorem pages_iff {order : OrderBy} {kind : DatabaseKind} {firstPlaceholder size : Nat}
    {predicate : String} (accepted : seekPredicate order kind firstPlaceholder = .ok predicate)
    {wanted : Row → Bool} {bound : Row → Option (List Value)}
    (binds : ∀ row ∈ table.rows, wanted row = true → bound row = some (table.after order row))
    {pages : List (List Row)} :
    table.Pages kind firstPlaceholder (orderClause order kind) predicate (limitClause size) wanted
        bound pages ↔
      Paged (table.before order.terms) (table.before order.terms) table.rows wanted size none
        pages := by
  obtain ⟨comparison, resumes, rfl, some'⟩ := seekPredicate_ok accepted
  have columns : comparison.columns ≠ [] := by
    rw [(OrderBy.resumes_ok resumes).1]
    exact mt List.map_eq_nil_iff.mp some'
  have clause := readOrder_orderClause kind some'
  have text := readComparison_render kind firstPlaceholder columns
  have seeks : ∀ last ∈ table.rows, wanted last = true →
      (fun row => (bound last).any fun position => table.resumesFrom comparison position row) =
        table.before order.terms last := by
    intro last among meets
    funext row
    rw [binds last among meets, Option.any_some]
    exact table.resumesFrom_eq resumes last row
  constructor
  · rintro ⟨terms, comparison', size', reads, compares, limits, paged⟩
    obtain rfl := Option.some.inj (clause.symm.trans reads)
    obtain rfl := Option.some.inj (text.symm.trans compares)
    obtain rfl := Option.some.inj ((readLimit_limitClause size).symm.trans limits)
    exact paged.congr seeks fun _ none => by cases none
  · intro paged
    refine ⟨_, _, _, clause, text, readLimit_limitClause size, ?_⟩
    exact paged.congr (fun last among meets => (seeks last among meets).symm)
      fun _ none => by cases none

end RowTable

/-- **Read page by page, every row is visited once and in the order requested**, and reading
ends: with the position after the last row of a page bound to the next statement, and as well
with what the row's cursor carries, where every position fits a cursor. -/
theorem pages_visit_once {Row Value : Type} (table : RowTable Row Value) (list : SortAllowlist)
    (declared : List (String × Direction)) (order : OrderBy) (kind : DatabaseKind)
    (firstPlaceholder : Nat) (predicate : String) (resolved : list.orderBy declared = .ok order)
    (accepted : seekPredicate order kind firstPlaceholder = .ok predicate)
    (unique : ∀ tiebreaker, list.tiebreaker = some tiebreaker → table.Unique tiebreaker)
    (wanted : Row → Bool) (size : Nat) (positive : 0 < size) :
    list.Requested declared order ∧ ∃ pages,
      (∀ read, table.Pages kind firstPlaceholder (orderClause order kind) predicate
        (limitClause size) wanted (fun row => some (table.after order row)) read ↔ read = pages) ∧
      (∀ (codec : ValueCodec Value) fingerprint bounded,
        (∀ row ∈ table.rows, wanted row = true →
          (table.keyset codec order fingerprint bounded row).size ≤ 767) →
        ∀ read, table.Pages kind firstPlaceholder (orderClause order kind) predicate
          (limitClause size) wanted (table.carried codec order fingerprint bounded) read ↔
            read = pages) ∧
      pages.flatten.Perm (table.rows.filter wanted) ∧
      pages.flatten.Pairwise fun row other => table.before order.terms row other = true := by
  obtain ⟨requested, few⟩ := SortAllowlist.orderBy_requested resolved
  obtain ⟨tiebreaker, has, term, member, rfl⟩ := requested.tiebreaker
  have orders := table.orders member (unique _ has)
  obtain ⟨pages, paged⟩ := @Foundation.Paging.ends _ _ _ wanted _ orders positive none
  have only : ∀ read, Paged (table.before order.terms) (table.before order.terms) table.rows wanted
      size none read ↔ read = pages :=
    fun read => ⟨fun again => Foundation.Paging.unique orders again paged, fun same => same ▸ paged⟩
  obtain ⟨perm, ordered⟩ := Foundation.Paging.visits orders paged
  refine ⟨requested, pages, fun read => ?_, fun codec fingerprint bounded fits read => ?_,
    by simpa using perm, ordered⟩
  · rw [RowTable.pages_iff accepted fun _ _ _ => rfl, only]
  · have terms := requested.length_le.trans (Nat.succ_le_succ few)
    rw [RowTable.pages_iff accepted fun row among meets =>
      RowTable.carried_eq terms (fits row among meets), only]

/-- A table of three rows that tie on one column, read two at a time. -/
theorem pages_visit_once_ties :
    let table : RowTable (Nat × Nat) Nat := {
      rows := [(7, 3), (7, 1), (7, 2)]
      cell := fun row column => if column = "id" then row.2 else row.1
      collation := fun _ => ⟨fun left right => left ≤ right, by simp; omega, by simp; omega⟩ }
    let order : OrderBy := ⟨[⟨"name", .descending⟩, ⟨"id", .descending⟩]⟩
    ∃ pages, table.Pages .postgres 4 (orderClause order .postgres) "(\"name\", \"id\") < ($4, $5)"
        (limitClause 2) (fun _ => true) (fun row => some (table.after order row)) pages ∧
      pages.flatten.Perm table.rows := by
  intro table order
  let list := (SortAllowlist.new.allow "name" "name").withTiebreaker "id"
  obtain ⟨_, pages, paged, _, perm, _⟩ := pages_visit_once table list [("name", .descending)] order
    .postgres 4 "(\"name\", \"id\") < ($4, $5)" rfl (by decide) (by
      rintro _ ⟨⟩
      unfold RowTable.Unique
      decide) (fun _ => true) 2 (by decide)
  exact ⟨pages, (paged pages).mpr rfl, by simpa using perm⟩

end Renvor
