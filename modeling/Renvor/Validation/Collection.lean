import Renvor.Foundation.Digits
import Renvor.Validation.Cursor
import Renvor.Validation.Issue

/-! # Collection reads

What a query may ask of a collection: a page, a position, an order, and what is selected,
included and filtered. What a contract does not name is refused.
-/

namespace Renvor

/-- The reason of a cursor that is not decoded. -/
def CursorError.reason : CursorError → Validation.Reason
  | .invalid => .cursorInvalid
  | .tooLong _ _ => .cursorInvalid
  | .unsupportedVersion _ => .cursorVersionUnsupported

end Renvor

namespace Renvor.Validation

open Foundation

/-- A comparison that a filter may use. -/
inductive FilterOperator
  | eq | ne | lt | le | gt | ge
  deriving DecidableEq

def FilterOperator.asStr : FilterOperator → String
  | .eq => "eq"
  | .ne => "ne"
  | .lt => "lt"
  | .le => "le"
  | .gt => "gt"
  | .ge => "ge"

def FilterOperator.all : List FilterOperator := [.eq, .ne, .lt, .le, .gt, .ge]

def FilterOperator.parse (text : String) : Option FilterOperator :=
  FilterOperator.all.find? fun operator => operator.asStr = text

inductive Direction
  | ascending | descending
  deriving DecidableEq

structure SortTerm where
  field : String
  direction : Direction
  deriving DecidableEq

/-- The terms of an order, and the field that breaks every tie. -/
structure SortPlan where
  terms : List SortTerm
  tiebreaker : String
  deriving DecidableEq

/-- The bounds of a page size, numbers of 32 bits. -/
structure PageBounds where
  default : Nat
  minimum : Nat
  maximum : Nat
  maximum_lt : maximum < 2 ^ 32

/-- What an operation permits a caller to ask for. -/
structure CollectionContract where
  page : PageBounds
  filterable : List (String × List FilterOperator)
  sortable : List String
  includable : List String
  selectable : List String
  tiebreaker : String
  maxFilterTerms : Nat
  maxSortTerms : Nat
  maxIncludes : Nat
  maxSelectedFields : Nat

structure FilterTerm where
  field : String
  operator : FilterOperator
  value : String
  deriving DecidableEq

/-- A validated collection read. -/
structure CollectionQuery where
  pageSize : Nat
  cursor : Option Cursor
  sort : SortPlan
  filters : List FilterTerm
  includes : List String
  fields : List String
  deriving DecidableEq

/-- The query parameters that are reserved. -/
def reservedParameters : List String := ["page_size", "cursor", "sort", "include", "fields"]

/-- A query's pairs, in arrival order. -/
abbrev Pairs := List (String × String)

/-! ## Keys -/

/-- How a filter's key begins. -/
def filterOpening : String := "filter["

def opensFilter (key : String) : Bool := filterOpening.toList.isPrefixOf key.toList

def isFilterKey (key : String) : Bool := opensFilter key && "]".toList.isSuffixOf key.toList

/-- The family of a key, which never shows an unknown key. -/
def queryPointer (key : String) : String :=
  if opensFilter key then "filter" else if key ∈ reservedParameters then key else "query"

/-- The pointer of the query itself. -/
def wholeQuery : Pointer := ⟨"query", by decide +kernel, by decide +kernel⟩

def issue (pointer : String) (reason : Reason) : Issue :=
  ⟨.query, (Pointer.new pointer).getD wholeQuery, reason⟩

/-- What stands in a filter's key: a field, and an operator, or else equality. -/
def filterParts (key : String) : String × String :=
  let inner := (key.toList.drop filterOpening.toList.length).dropLast
  match splitOnce "][".toList inner with
  | some (field, operator) => (String.ofList field, String.ofList operator)
  | none => (String.ofList inner, "eq")

/-! ## Judgements -/

/-- What some items are accepted as, and why others are refused. -/
def sift {α β ε : Type} (judge : α → Except ε β) : List α → List β × List ε
  | [] => ([], [])
  | item :: rest => match judge item with
      | .ok value => (value :: (sift judge rest).1, (sift judge rest).2)
      | .error error => ((sift judge rest).1, error :: (sift judge rest).2)

/-- A bounded list of items; those past its bound are not looked at. -/
def bounded {α β : Type} (parameter : String) (bound : Nat) (judge : α → Except Issue β)
    (requested : List α) : List β × List Issue :=
  ((sift judge (requested.take bound)).1,
    (if bound < requested.length then [issue parameter .tooManyTerms] else []) ++
      (sift judge (requested.take bound)).2)

/-- The names between commas that are not empty. -/
def names (text : String) : List String :=
  ((text.toList.splitOn ',').filter fun name => !name.isEmpty).map String.ofList

/-- An unsigned number: digits, maybe after a plus sign. -/
def unsignedOf (text : String) : Option Nat :=
  let digits := match text.toList with
    | '+' :: rest => rest
    | all => all
  if !digits.isEmpty && digits.all Digits.isDigit then some (Digits.number digits) else none

/-- An unsigned number of 32 bits. -/
def parseU32 (text : String) : Option Nat := (unsignedOf text).filter fun number => number < 2 ^ 32

/-- A name that is sorted by, in a direction. -/
def sortTerm (raw : String) : SortTerm :=
  match raw.toList with
  | '-' :: stripped => ⟨String.ofList stripped, .descending⟩
  | _ => ⟨raw, .ascending⟩

section Contract

variable (contract : CollectionContract)

def judgeSort (raw : String) : Except Issue SortTerm :=
  if (sortTerm raw).field ∈ contract.sortable then .ok (sortTerm raw)
  else .error (issue "sort" .notAllowlisted)

def judgeName (parameter : String) (allowlist : List String) (name : String) :
    Except Issue String :=
  if name ∈ allowlist then .ok name else .error (issue parameter .notAllowlisted)

def judgeFilter (pair : String × String) : Except Issue FilterTerm :=
  match contract.filterable.lookup (filterParts pair.1).1 with
  | none => .error (issue "filter" .notAllowlisted)
  | some permitted => match FilterOperator.parse (filterParts pair.1).2 with
      | none => .error (issue "filter" .operatorNotAllowed)
      | some operator =>
          if operator ∈ permitted then .ok ⟨(filterParts pair.1).1, operator, pair.2⟩
          else .error (issue "filter" .operatorNotAllowed)

/-! ## The families of parameters -/

/-- Keys that are supplied more than once. -/
def duplicates (pairs : Pairs) : List Issue :=
  (((pairs.map Prod.fst).dedup.insertionSort (· ≤ ·)).filter fun key =>
    1 < (pairs.map Prod.fst).count key).map fun key => issue (queryPointer key) .duplicateKey

/-- Keys that are not recognised. -/
def unknown (pairs : Pairs) : List Issue :=
  (pairs.filter fun pair => !(decide (pair.1 ∈ reservedParameters) || isFilterKey pair.1)).map
    fun _ => issue "query" .notAllowlisted

def pageSize : Option String → Nat × List Issue
  | none => (contract.page.default, [])
  | some text => match parseU32 text with
      | some size =>
          if contract.page.minimum ≤ size ∧ size ≤ contract.page.maximum then (size, [])
          else (contract.page.default, [issue "page_size" .outOfRange])
      | none => (contract.page.default, [issue "page_size" .typeMismatch])

def cursorOf : Option String → Option Cursor × List Issue
  | none => (none, [])
  | some text => match Cursor.decode text with
      | .ok cursor => (some cursor, [])
      | .error error => (none, [issue "cursor" error.reason])

def sortTerms : Option String → List SortTerm × List Issue
  | none => ([], [])
  | some text => bounded "sort" contract.maxSortTerms (judgeSort contract) (names text)

def allowlistedList (parameter : String) (allowlist : List String) (bound : Nat) :
    Option String → List String × List Issue
  | none => ([], [])
  | some text => bounded parameter bound (judgeName parameter allowlist) (names text)

def includes : Option String → List String × List Issue :=
  allowlistedList "include" contract.includable contract.maxIncludes

def fields : Option String → List String × List Issue :=
  allowlistedList "fields" contract.selectable contract.maxSelectedFields

def filters (pairs : Pairs) : List FilterTerm × List Issue :=
  bounded "filter" contract.maxFilterTerms (judgeFilter contract)
    (pairs.filter fun pair => isFilterKey pair.1)

/-- The issues of a query, as they are found. -/
def found (pairs : Pairs) : List Issue :=
  duplicates pairs ++ unknown pairs ++ (pageSize contract (pairs.lookup "page_size")).2 ++
    (cursorOf (pairs.lookup "cursor")).2 ++ (sortTerms contract (pairs.lookup "sort")).2 ++
    (includes contract (pairs.lookup "include")).2 ++
    (fields contract (pairs.lookup "fields")).2 ++ (filters contract pairs).2

/-- What a query is read as. -/
def readAs (pairs : Pairs) : CollectionQuery where
  pageSize := (pageSize contract (pairs.lookup "page_size")).1
  cursor := (cursorOf (pairs.lookup "cursor")).1
  sort := ⟨(sortTerms contract (pairs.lookup "sort")).1, contract.tiebreaker⟩
  filters := (filters contract pairs).1
  includes := (includes contract (pairs.lookup "include")).1
  fields := (fields contract (pairs.lookup "fields")).1

/-- Parses and validates a query. -/
def parse (pairs : Pairs) : Except (List Issue) CollectionQuery :=
  if (found contract pairs).isEmpty then .ok (readAs contract pairs)
  else .error (report (found contract pairs))

end Contract

end Renvor.Validation
