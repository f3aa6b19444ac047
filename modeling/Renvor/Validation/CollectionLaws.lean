import Renvor.Validation.Collection

/-! # What a collection read is refused for

A query is read just where every pair of it is permitted, as what its pairs say. Otherwise
each kind of violation is named once, in order; but of a parameter that repeats only the
first text is looked at, and a page size past 32 bits is no number
(`Renvor.Validation.parse_exact_iff`).
-/

namespace Renvor.Validation

open Foundation

/-! ## What is permitted, and what a query says -/

/-- The parameters that list names. -/
inductive ListFamily
  | sort | included | selected

namespace ListFamily

/-- The parameter that a list is read from. -/
def name : ListFamily → String
  | .sort => "sort"
  | .included => "include"
  | .selected => "fields"

/-- The most terms that a list may have. -/
def bound (contract : CollectionContract) : ListFamily → Nat
  | .sort => contract.maxSortTerms
  | .included => contract.maxIncludes
  | .selected => contract.maxSelectedFields

/-- What the contract lets a list name. -/
def Allows (contract : CollectionContract) : ListFamily → String → Prop
  | .sort, raw => (sortTerm raw).field ∈ contract.sortable
  | .included, name => name ∈ contract.includable
  | .selected, name => name ∈ contract.selectable

end ListFamily

/-- The texts of a parameter. -/
def textsOf (name : String) (pairs : Pairs) : List String :=
  (pairs.filter fun pair => pair.1 = name).map Prod.snd

/-- The pairs that filter, in the order of the query. -/
def filterPairs (pairs : Pairs) : Pairs := pairs.filter fun pair => isFilterKey pair.1

variable (contract : CollectionContract) (pairs : Pairs)

/-- A filter's field is allowlisted, with the operator. -/
def Permits (key : String) : Prop :=
  ∃ permitted, contract.filterable.lookup (filterParts key).1 = some permitted ∧
    ∃ operator ∈ permitted, operator.asStr = (filterParts key).2

/-- **A query that a contract permits.** -/
structure Valid : Prop where
  once : (pairs.map Prod.fst).Nodup
  known : ∀ pair ∈ pairs, pair.1 ∈ reservedParameters ∨
    (isFilterKey pair.1 = true ∧ Permits contract pair.1)
  page : ∀ text, ("page_size", text) ∈ pairs → ∃ size, unsignedOf text = some size ∧
    contract.page.minimum ≤ size ∧ size ≤ contract.page.maximum
  cursor : ∀ text, ("cursor", text) ∈ pairs → ∃ cursor, Cursor.decode text = .ok cursor
  allowed : ∀ family : ListFamily, ∀ text, (family.name, text) ∈ pairs →
    ∀ name ∈ names text, family.Allows contract name
  few : ∀ family : ListFamily, ∀ text, (family.name, text) ∈ pairs →
    (names text).length ≤ family.bound contract
  filters : (filterPairs pairs).length ≤ contract.maxFilterTerms

/-- **What the pairs of a query say.** -/
structure Denotes (query : CollectionQuery) : Prop where
  pageSize : ∀ text, ("page_size", text) ∈ pairs → unsignedOf text = some query.pageSize
  pageDefault : (∀ text, ("page_size", text) ∉ pairs) →
    query.pageSize = contract.page.default
  cursor : ∀ cursor, query.cursor = some cursor ↔
    ∃ text, ("cursor", text) ∈ pairs ∧ Cursor.decode text = .ok cursor
  sort : query.sort.terms = ((textsOf "sort" pairs).flatMap names).map sortTerm
  tiebreaker : query.sort.tiebreaker = contract.tiebreaker
  includes : query.includes = (textsOf "include" pairs).flatMap names
  fields : query.fields = (textsOf "fields" pairs).flatMap names
  filters : List.Forall₂ (fun pair term => filterParts pair.1 = (term.field, term.operator.asStr) ∧
    term.value = pair.2) (filterPairs pairs) query.filters

/-! ## Violations -/

/-- A kind of violation of a parameter's text; in a list, among the first names within its
bound. -/
inductive Violates : String → String → Reason → Prop
  | notNumber {text : String} (no : unsignedOf text = none) :
      Violates "page_size" text .typeMismatch
  | outOfRange {text : String} {size : Nat} (is : unsignedOf text = some size)
      (out : ¬(contract.page.minimum ≤ size ∧ size ≤ contract.page.maximum)) :
      Violates "page_size" text .outOfRange
  | cursor {text : String} {error : CursorError} (fails : Cursor.decode text = .error error) :
      Violates "cursor" text error.reason
  | tooMany (family : ListFamily) {text : String}
      (many : family.bound contract < (names text).length) :
      Violates family.name text .tooManyTerms
  | notAllowed (family : ListFamily) {text name : String}
      (within : name ∈ (names text).take (family.bound contract))
      (no : ¬family.Allows contract name) : Violates family.name text .notAllowlisted

/-- A kind of violation of a query's filters, among the first within their bound. -/
inductive FilterViolates : Reason → Prop
  | tooMany (many : contract.maxFilterTerms < (filterPairs pairs).length) :
      FilterViolates .tooManyTerms
  | field {pair : String × String}
      (within : pair ∈ (filterPairs pairs).take contract.maxFilterTerms)
      (no : contract.filterable.lookup (filterParts pair.1).1 = none) :
      FilterViolates .notAllowlisted
  | operator {pair : String × String} {permitted : List FilterOperator}
      (within : pair ∈ (filterPairs pairs).take contract.maxFilterTerms)
      (known : contract.filterable.lookup (filterParts pair.1).1 = some permitted)
      (no : ∀ operator ∈ permitted, operator.asStr ≠ (filterParts pair.1).2) :
      FilterViolates .operatorNotAllowed

/-- **A violation that is present in a query**, as an issue. -/
inductive Violated : Issue → Prop
  | duplicate {key : String} (twice : 1 < (pairs.map Prod.fst).count key) :
      Violated (issue (queryPointer key) .duplicateKey)
  | unknown {pair : String × String} (member : pair ∈ pairs)
      (unreserved : pair.1 ∉ reservedParameters) (other : isFilterKey pair.1 = false) :
      Violated (issue "query" .notAllowlisted)
  | parameter {name text : String} {reason : Reason} (member : (name, text) ∈ pairs)
      (violates : Violates contract name text reason) : Violated (issue name reason)
  | filter {reason : Reason} (violates : FilterViolates contract pairs reason) :
      Violated (issue "filter" reason)

/-- **A query is read as it should be**: as what it says where it is permitted, or else
refused for each kind of violation, once, in order, under a name that no caller chose. -/
def Exact : Prop :=
  match parse contract pairs with
  | .ok query => Valid contract pairs ∧ Denotes contract pairs query
  | .error issues => ¬Valid contract pairs ∧ issues ≠ [] ∧
      (issues.Pairwise fun first second => first.le second ∧ first ≠ second) ∧
      (∀ issue, issue ∈ issues ↔ Violated contract pairs issue) ∧
      ∀ issue ∈ issues, issue.pointer.text ∈ "filter" :: "query" :: reservedParameters

/-- **No kind of violation is missed**: a page size is within 32 bits, and what a later text
of a parameter violates, its first does too. -/
structure Plain : Prop where
  page : ∀ text, pairs.lookup "page_size" = some text →
    ∀ size, unsignedOf text = some size → size < 2 ^ 32
  later : ∀ name first, pairs.lookup name = some first → ∀ text, (name, text) ∈ pairs →
    ∀ reason, Violates contract name text reason → Violates contract name first reason

/-! ## What is found -/

/-- A kind of violation that is found in a parameter's text. -/
inductive Judged : String → String → Reason → Prop
  | notNumber {text : String} (no : parseU32 text = none) : Judged "page_size" text .typeMismatch
  | outOfRange {text : String} {size : Nat} (is : parseU32 text = some size)
      (out : ¬(contract.page.minimum ≤ size ∧ size ≤ contract.page.maximum)) :
      Judged "page_size" text .outOfRange
  | cursor {text : String} {error : CursorError} (fails : Cursor.decode text = .error error) :
      Judged "cursor" text error.reason
  | tooMany (family : ListFamily) {text : String}
      (many : family.bound contract < (names text).length) :
      Judged family.name text .tooManyTerms
  | notAllowed (family : ListFamily) {text name : String}
      (within : name ∈ (names text).take (family.bound contract))
      (no : ¬family.Allows contract name) : Judged family.name text .notAllowlisted

section Sift

variable {α β ε : Type} {judge : α → Except ε β} {list : List α}

/-- The errors of a sifted list are those of its items. -/
theorem mem_sift {error : ε} :
    error ∈ (sift judge list).2 ↔ ∃ item ∈ list, judge item = .error error := by
  induction list with
  | nil => simp [sift]
  | cons item rest ih =>
      cases judged : judge item with
      | ok value => simp [sift, judged, ih]
      | error other => simp [sift, judged, ih, eq_comm]

/-- Where nothing is refused, everything is accepted, in order. -/
theorem sift_accepted (none : (sift judge list).2 = []) :
    List.Forall₂ (fun item value => judge item = .ok value) list (sift judge list).1 := by
  induction list with
  | nil => exact List.Forall₂.nil
  | cons item rest ih =>
      cases judged : judge item with
      | ok value =>
          simp only [sift, judged] at none ⊢
          exact List.Forall₂.cons judged (ih none)
      | error other => simp [sift, judged] at none

end Sift

section Bounded

variable {α β : Type} {judge : α → Except Issue β} {requested : List α} {parameter : String}
  {bound : Nat}

/-- A bounded list is reported once for its length, and for each of the terms within the bound
that fails. -/
theorem mem_bounded {found : Issue} : found ∈ (bounded parameter bound judge requested).2 ↔
    (bound < requested.length ∧ found = issue parameter .tooManyTerms) ∨
      ∃ item ∈ requested.take bound, judge item = .error found := by
  rw [bounded, List.mem_append, mem_sift]
  split
  next many => simp [many]
  next few => simp [few]

/-- A list that nothing of is refused is within its bound, and accepted in order. -/
theorem bounded_accepted (none : (bounded parameter bound judge requested).2 = []) :
    requested.length ≤ bound ∧ List.Forall₂ (fun item value => judge item = .ok value) requested
      (bounded parameter bound judge requested).1 := by
  have few : requested.length ≤ bound := by
    by_contra many
    have named : issue parameter .tooManyTerms ∈ (bounded parameter bound judge requested).2 :=
      mem_bounded.mpr (.inl ⟨Nat.lt_of_not_le many, rfl⟩)
    rw [none] at named
    cases named
  refine ⟨few, ?_⟩
  have accepted := sift_accepted (List.append_eq_nil_iff.mp none).2
  rw [bounded]
  rwa [List.take_of_length_le few] at accepted ⊢

end Bounded

variable {contract pairs}

/-- A page size is read exactly where it is a number of thirty-two bits. -/
theorem parseU32_some {text : String} {size : Nat} :
    parseU32 text = some size ↔ unsignedOf text = some size ∧ size < 2 ^ 32 := by
  simp [parseU32, Option.filter_eq_some_iff]

/-- A page size is not read where its text is no number, or one that is too large. -/
theorem parseU32_none {text : String} :
    parseU32 text = none ↔ ∀ size, unsignedOf text = some size → 2 ^ 32 ≤ size := by
  simp [parseU32, Option.filter_eq_none_iff]

/-- A text within 32 bits is judged as it is. -/
theorem judged_iff {name text : String} {reason : Reason}
    (small : name = "page_size" → ∀ size, unsignedOf text = some size → size < 2 ^ 32) :
    Judged contract name text reason ↔ Violates contract name text reason := by
  constructor
  · rintro (no | ⟨is, out⟩ | fails | ⟨family, many⟩ | ⟨family, within, no⟩)
    · refine .notNumber (Option.eq_none_iff_forall_ne_some.mpr fun size is => ?_)
      exact Nat.not_lt.mpr (parseU32_none.mp no size is) (small rfl size is)
    · exact .outOfRange (parseU32_some.mp is).1 out
    · exact .cursor fails
    · exact .tooMany family many
    · exact .notAllowed family within no
  · rintro (no | ⟨is, out⟩ | fails | ⟨family, many⟩ | ⟨family, within, no⟩)
    · exact .notNumber (parseU32_none.mpr fun size is => nomatch no.symm.trans is)
    · exact .outOfRange (parseU32_some.mpr ⟨is, small rfl _ is⟩) out
    · exact .cursor fails
    · exact .tooMany family many
    · exact .notAllowed family within no

/-- What is found in a query, as an issue. -/
inductive Found (contract : CollectionContract) (pairs : Pairs) : Issue → Prop
  | duplicate {key : String} (twice : 1 < (pairs.map Prod.fst).count key) :
      Found contract pairs (issue (queryPointer key) .duplicateKey)
  | unknown {pair : String × String} (member : pair ∈ pairs)
      (unreserved : pair.1 ∉ reservedParameters) (other : isFilterKey pair.1 = false) :
      Found contract pairs (issue "query" .notAllowlisted)
  | parameter {name text : String} {reason : Reason} (first : pairs.lookup name = some text)
      (judged : Judged contract name text reason) : Found contract pairs (issue name reason)
  | filter {reason : Reason} (violates : FilterViolates contract pairs reason) :
      Found contract pairs (issue "filter" reason)

/-- Each parameter that is given more than once is reported. -/
theorem mem_duplicates {found : Issue} : found ∈ duplicates pairs ↔
    ∃ key, 1 < (pairs.map Prod.fst).count key ∧ found = issue (queryPointer key) .duplicateKey := by
  simp only [duplicates, List.mem_map, List.mem_filter, List.mem_insertionSort, List.mem_dedup,
    decide_eq_true_eq]
  constructor
  · rintro ⟨key, ⟨_, twice⟩, rfl⟩
    exact ⟨key, twice, rfl⟩
  · rintro ⟨key, twice, rfl⟩
    refine ⟨key, ⟨?_, twice⟩, rfl⟩
    have member := List.count_pos_iff.mp (Nat.zero_lt_of_lt twice)
    exact List.mem_map.mp member

/-- Each parameter is reported that is neither reserved nor a filter. -/
theorem mem_unknown {found : Issue} : found ∈ unknown pairs ↔
    ∃ pair ∈ pairs, pair.1 ∉ reservedParameters ∧ isFilterKey pair.1 = false ∧
      found = issue "query" .notAllowlisted := by
  simp only [unknown, List.mem_map, List.mem_filter, Bool.not_eq_true', Bool.or_eq_false_iff,
    decide_eq_false_iff_not]
  constructor
  · rintro ⟨pair, ⟨member, unreserved, other⟩, rfl⟩
    exact ⟨pair, member, unreserved, other, rfl⟩
  · rintro ⟨pair, member, unreserved, other, rfl⟩
    exact ⟨pair, ⟨member, unreserved, other⟩, rfl⟩

/-- A page size is reported as no number, or as one out of range. -/
theorem mem_pageSize {given : Option String} {found : Issue} :
    found ∈ (pageSize contract given).2 ↔ ∃ text, given = some text ∧
      ((parseU32 text = none ∧ found = issue "page_size" .typeMismatch) ∨
        ∃ size, parseU32 text = some size ∧
          ¬(contract.page.minimum ≤ size ∧ size ≤ contract.page.maximum) ∧
          found = issue "page_size" .outOfRange) := by
  cases given with
  | none => simp [pageSize]
  | some text =>
      cases parsed : parseU32 text with
      | none => simp [pageSize, parsed]
      | some size =>
          by_cases within : contract.page.minimum ≤ size ∧ size ≤ contract.page.maximum
          · simp [pageSize, parsed, within]
          · rw [pageSize, parsed]
            dsimp only
            rw [if_neg within, List.mem_singleton]
            constructor
            · intro same
              exact ⟨text, rfl, .inr ⟨size, parsed, within, same⟩⟩
            · rintro ⟨other, same, ⟨no, _⟩ | ⟨_, _, _, named⟩⟩
              · cases same
                cases parsed.symm.trans no
              · exact named

/-- A cursor is reported with the reason for which it could not be decoded. -/
theorem mem_cursorOf {given : Option String} {found : Issue} :
    found ∈ (cursorOf given).2 ↔ ∃ text, given = some text ∧
      ∃ error, Cursor.decode text = .error error ∧ found = issue "cursor" error.reason := by
  cases given with
  | none => simp [cursorOf]
  | some text =>
      cases decoded : Cursor.decode text with
      | ok cursor => simp [cursorOf, decoded]
      | error error => simp [cursorOf, decoded]

/-- The issues of a parameter that lists names. -/
def listIssues (contract : CollectionContract) (pairs : Pairs) : ListFamily → List Issue
  | .sort => (sortTerms contract (pairs.lookup "sort")).2
  | .included => (includes contract (pairs.lookup "include")).2
  | .selected => (fields contract (pairs.lookup "fields")).2

/-- A sort term is refused exactly where its field may not be sorted by. -/
theorem judgeSort_error {raw : String} {found : Issue} : judgeSort contract raw = .error found ↔
    ¬ListFamily.sort.Allows contract raw ∧ found = issue "sort" .notAllowlisted := by
  unfold judgeSort ListFamily.Allows
  split
  next allowed => simp [allowed]
  next refused => simp [refused, eq_comm]

/-- A name is refused exactly where the list of those allowed does not have it. -/
theorem judgeName_error {parameter name : String} {allowlist : List String} {found : Issue} :
    judgeName parameter allowlist name = .error found ↔
      name ∉ allowlist ∧ found = issue parameter .notAllowlisted := by
  unfold judgeName
  split
  next allowed => simp [allowed]
  next refused => simp [refused, eq_comm]

/-- A list of names is reported for its length, and for each name within the bound that is not
allowed. -/
theorem mem_allowlistedList {parameter : String} {allowlist : List String} {bound : Nat}
    {given : Option String} {found : Issue} :
    found ∈ (allowlistedList parameter allowlist bound given).2 ↔ ∃ text, given = some text ∧
      ((bound < (names text).length ∧ found = issue parameter .tooManyTerms) ∨
        ∃ name ∈ (names text).take bound, name ∉ allowlist ∧
          found = issue parameter .notAllowlisted) := by
  cases given with
  | none => simp [allowlistedList]
  | some text =>
      simp only [allowlistedList, mem_bounded, judgeName_error, Option.some.injEq, exists_eq_left']

/-- Each of the three lists is reported in one way, by its own bound and what it allows. -/
theorem mem_listIssues {family : ListFamily} {found : Issue} :
    found ∈ listIssues contract pairs family ↔ ∃ text, pairs.lookup family.name = some text ∧
      ((family.bound contract < (names text).length ∧
          found = issue family.name .tooManyTerms) ∨
        ∃ name ∈ (names text).take (family.bound contract), ¬family.Allows contract name ∧
          found = issue family.name .notAllowlisted) := by
  cases family with
  | sort =>
      show found ∈ (sortTerms contract (pairs.lookup "sort")).2 ↔
        ∃ text, pairs.lookup "sort" = some text ∧ _
      cases pairs.lookup "sort" with
      | none => simp [sortTerms]
      | some text =>
          simp only [sortTerms, mem_bounded, judgeSort_error, Option.some.injEq, exists_eq_left']
          rfl
  | included => exact mem_allowlistedList
  | selected => exact mem_allowlistedList

/-! ## Filters -/

/-- An operator is read from its own name only. -/
theorem FilterOperator.parse_some {text : String} {operator : FilterOperator} :
    FilterOperator.parse text = some operator ↔ operator.asStr = text := by
  constructor
  · intro parsed
    have held := List.find?_some parsed
    exact of_decide_eq_true held
  · rintro rfl
    cases operator <;> decide +kernel

/-- No two operators have one name. -/
theorem FilterOperator.asStr_injective : Function.Injective FilterOperator.asStr := by
  intro first second same
  exact Option.some.inj ((parse_some.mpr same).symm.trans (parse_some.mpr rfl))

/-- A filter is refused for its field, or for its operator, or is accepted as it is. -/
theorem judgeFilter_cases (contract : CollectionContract) (pair : String × String) :
    (contract.filterable.lookup (filterParts pair.1).1 = none ∧
      judgeFilter contract pair = .error (issue "filter" .notAllowlisted)) ∨
    (∃ permitted, contract.filterable.lookup (filterParts pair.1).1 = some permitted ∧
      (∀ operator ∈ permitted, operator.asStr ≠ (filterParts pair.1).2) ∧
      judgeFilter contract pair = .error (issue "filter" .operatorNotAllowed)) ∨
    ∃ operator, Permits contract pair.1 ∧ operator.asStr = (filterParts pair.1).2 ∧
      judgeFilter contract pair = .ok ⟨(filterParts pair.1).1, operator, pair.2⟩ := by
  unfold judgeFilter
  cases field : contract.filterable.lookup (filterParts pair.1).1 with
  | none => exact .inl ⟨rfl, rfl⟩
  | some permitted =>
      cases parsed : FilterOperator.parse (filterParts pair.1).2 with
      | none =>
          refine .inr (.inl ⟨permitted, rfl, fun operator _ same => ?_, rfl⟩)
          exact nomatch (FilterOperator.parse_some.mpr same).symm.trans parsed
      | some operator =>
          have named := FilterOperator.parse_some.mp parsed
          by_cases member : operator ∈ permitted
          · exact .inr (.inr ⟨operator, ⟨permitted, field, operator, member, named⟩, named,
              if_pos member⟩)
          · refine .inr (.inl ⟨permitted, rfl, fun other permits same => member ?_,
              if_neg member⟩)
            rwa [← FilterOperator.asStr_injective (same.trans named.symm)]

/-- A filter is refused where its field may not be filtered by, or not with that operator. -/
theorem judgeFilter_error {pair : String × String} {found : Issue} :
    judgeFilter contract pair = .error found ↔
      (contract.filterable.lookup (filterParts pair.1).1 = none ∧
        found = issue "filter" .notAllowlisted) ∨
      ∃ permitted, contract.filterable.lookup (filterParts pair.1).1 = some permitted ∧
        (∀ operator ∈ permitted, operator.asStr ≠ (filterParts pair.1).2) ∧
        found = issue "filter" .operatorNotAllowed := by
  rcases judgeFilter_cases contract pair with ⟨unknown, judged⟩ | ⟨permitted, known, no, judged⟩ |
    ⟨operator, ⟨permitted, known, other, permits, named⟩, _, judged⟩
  · rw [judged, unknown]
    simp [eq_comm]
  · rw [judged, known]
    simp only [Except.error.injEq, reduceCtorEq, false_and, false_or, Option.some.injEq,
      exists_eq_left']
    exact ⟨fun same => ⟨no, same.symm⟩, fun both => both.2.symm⟩
  · rw [judged, known]
    simp only [reduceCtorEq, false_and, false_or, Option.some.injEq, exists_eq_left', false_iff,
      not_and]
    exact fun no => absurd named (no other permits)

/-- A filter that was accepted has the field, the operator and the value that stand in the query. -/
theorem judgeFilter_ok {pair : String × String} {term : FilterTerm}
    (judged : judgeFilter contract pair = .ok term) :
    filterParts pair.1 = (term.field, term.operator.asStr) ∧ term.value = pair.2 ∧
      Permits contract pair.1 := by
  rcases judgeFilter_cases contract pair with ⟨_, other⟩ | ⟨_, _, _, other⟩ |
    ⟨operator, permits, named, other⟩
  · cases judged.symm.trans other
  · cases judged.symm.trans other
  · cases judged.symm.trans other
    exact ⟨Prod.ext rfl named.symm, rfl, permits⟩

/-- What is reported of filters is what the contract says they violate. -/
theorem mem_filters {found : Issue} : found ∈ (filters contract pairs).2 ↔
    ∃ reason, FilterViolates contract pairs reason ∧ found = issue "filter" reason := by
  rw [filters, mem_bounded]
  constructor
  · rintro (⟨many, rfl⟩ | ⟨pair, within, judged⟩)
    · exact ⟨_, .tooMany many, rfl⟩
    · rcases judgeFilter_error.mp judged with ⟨unknown, rfl⟩ | ⟨permitted, known, no, rfl⟩
      · exact ⟨_, .field within unknown, rfl⟩
      · exact ⟨_, .operator within known no, rfl⟩
  · rintro ⟨reason, many | ⟨within, no⟩ | ⟨within, known, no⟩, rfl⟩
    · exact .inl ⟨many, rfl⟩
    · exact .inr ⟨_, within, judgeFilter_error.mpr (.inl ⟨no, rfl⟩)⟩
    · exact .inr ⟨_, within, judgeFilter_error.mpr (.inr ⟨_, known, no, rfl⟩)⟩

/-! ## All that is found -/

/-- Everything found in a query is found by one of its parts. -/
theorem mem_families {it : Issue} : it ∈ found contract pairs ↔
    it ∈ duplicates pairs ∨ it ∈ unknown pairs ∨
      it ∈ (pageSize contract (pairs.lookup "page_size")).2 ∨
      it ∈ (cursorOf (pairs.lookup "cursor")).2 ∨
      (∃ family, it ∈ listIssues contract pairs family) ∨ it ∈ (filters contract pairs).2 := by
  have listed : (∃ family, it ∈ listIssues contract pairs family) ↔
      it ∈ (sortTerms contract (pairs.lookup "sort")).2 ∨
        it ∈ (includes contract (pairs.lookup "include")).2 ∨
        it ∈ (fields contract (pairs.lookup "fields")).2 := by
    constructor
    · rintro ⟨family, member⟩
      cases family with
      | sort => exact .inl member
      | included => exact .inr (.inl member)
      | selected => exact .inr (.inr member)
    · rintro (member | member | member)
      · exact ⟨.sort, member⟩
      · exact ⟨.included, member⟩
      · exact ⟨.selected, member⟩
  rw [listed]
  simp only [found, List.mem_append, or_assoc]

/-- What is found is what the first texts are judged for. -/
theorem mem_found {it : Issue} : it ∈ found contract pairs ↔ Found contract pairs it := by
  rw [mem_families, mem_duplicates, mem_unknown, mem_pageSize, mem_cursorOf, mem_filters]
  simp only [mem_listIssues]
  constructor
  · rintro (⟨key, twice, rfl⟩ | ⟨pair, member, unreserved, other, rfl⟩ | ⟨text, first, page⟩ |
      ⟨text, first, error, fails, rfl⟩ | ⟨family, text, first, list⟩ | ⟨reason, violates, rfl⟩)
    · exact .duplicate twice
    · exact .unknown member unreserved other
    · rcases page with ⟨no, rfl⟩ | ⟨size, is, out, rfl⟩
      · exact .parameter first (.notNumber no)
      · exact .parameter first (.outOfRange is out)
    · exact .parameter first (.cursor fails)
    · rcases list with ⟨many, rfl⟩ | ⟨name, within, no, rfl⟩
      · exact .parameter first (.tooMany family many)
      · exact .parameter first (.notAllowed family within no)
    · exact .filter violates
  · rintro (twice | ⟨member, unreserved, other⟩ | ⟨first, judged⟩ | violates)
    · exact .inl ⟨_, twice, rfl⟩
    · exact .inr (.inl ⟨_, member, unreserved, other, rfl⟩)
    · cases judged with
      | notNumber no => exact .inr (.inr (.inl ⟨_, first, .inl ⟨no, rfl⟩⟩))
      | outOfRange is out => exact .inr (.inr (.inl ⟨_, first, .inr ⟨_, is, out, rfl⟩⟩))
      | cursor fails => exact .inr (.inr (.inr (.inl ⟨_, first, _, fails, rfl⟩)))
      | tooMany family many =>
          exact .inr (.inr (.inr (.inr (.inl ⟨family, _, first, .inl ⟨many, rfl⟩⟩))))
      | notAllowed family within no =>
          exact .inr (.inr (.inr (.inr (.inl ⟨family, _, first, .inr ⟨_, within, no, rfl⟩⟩))))
    · exact .inr (.inr (.inr (.inr (.inr ⟨_, violates, rfl⟩))))

/-! ## Nothing is found just where a query is permitted -/

section Lookup

variable {name text : String}

/-- What is looked up is one of the pairs. -/
theorem mem_of_lookup (first : pairs.lookup name = some text) : (name, text) ∈ pairs := by
  obtain ⟨before, after, rfl, _⟩ := List.lookup_eq_some_iff.mp first
  exact List.mem_append_right _ List.mem_cons_self

/-- Something is looked up wherever there is a pair. -/
theorem exists_lookup (member : (name, text) ∈ pairs) :
    ∃ first, pairs.lookup name = some first := by
  refine Option.isSome_iff_exists.mp (List.lookup_isSome_iff.mpr ?_)
  exact ⟨_, member, beq_self_eq_true _⟩

/-- Of a key that is there once, the first text is the one. -/
theorem lookup_of_mem (once : (pairs.map Prod.fst).Nodup) (member : (name, text) ∈ pairs) :
    pairs.lookup name = some text := by
  obtain ⟨before, after, rfl⟩ := List.append_of_mem member
  refine List.lookup_eq_some_iff.mpr ⟨before, after, rfl, fun pair earlier => ?_⟩
  rw [List.map_append, List.map_cons, List.nodup_append] at once
  refine bne_iff_ne.mpr (Ne.symm (once.2.2 pair.1 (List.mem_map_of_mem earlier) name ?_))
  exact List.mem_cons_self

/-- A parameter that is given once has one text at most. -/
theorem textsOf_once (once : (pairs.map Prod.fst).Nodup) :
    textsOf name pairs = (pairs.lookup name).toList := by
  induction pairs with
  | nil => rfl
  | cons pair rest ih =>
      rw [List.map_cons, List.nodup_cons] at once
      unfold textsOf at ih ⊢
      by_cases same : pair.1 = name
      · have none : rest.filter (fun pair => pair.1 = name) = [] := by
          refine List.filter_eq_nil_iff.mpr fun other member also => once.1 ?_
          rw [same, ← of_decide_eq_true also]
          exact List.mem_map_of_mem member
        rw [List.filter_cons_of_pos (by simpa using same), none, List.lookup_cons, same]
        simp
      · rw [List.filter_cons_of_neg (by simpa using same), ih once.2, List.lookup_cons,
          beq_eq_false_iff_ne.mpr (Ne.symm same)]

end Lookup

/-- No reserved parameter is taken for a filter. -/
theorem reserved_not_filter {key : String} (reserved : key ∈ reservedParameters) :
    isFilterKey key = false := by
  revert key
  decide +kernel

/-- Nothing is found in a query that is permitted. -/
theorem not_found_of_valid (valid : Valid contract pairs) {it : Issue} :
    ¬Found contract pairs it := by
  have inFilters : ∀ pair ∈ (filterPairs pairs).take contract.maxFilterTerms,
      Permits contract pair.1 := by
    intro pair within
    obtain ⟨member, isFilter⟩ := List.mem_filter.mp (List.mem_of_mem_take within)
    rcases valid.known pair member with reserved | ⟨_, permits⟩
    · rw [reserved_not_filter reserved] at isFilter
      cases isFilter
    · exact permits
  rintro (twice | ⟨member, unreserved, other⟩ | ⟨first, judged⟩ | violates)
  · exact Nat.not_lt.mpr (List.nodup_iff_count_le_one.mp valid.once _) twice
  · rcases valid.known _ member with reserved | ⟨isFilter, _⟩
    · exact unreserved reserved
    · rw [other] at isFilter
      cases isFilter
  · have member := mem_of_lookup first
    cases judged with
    | notNumber no =>
        obtain ⟨size, is, _, most⟩ := valid.page _ member
        have past := parseU32_none.mp no size is
        have bound := contract.page.maximum_lt
        omega
    | outOfRange is out =>
        obtain ⟨size, is', within⟩ := valid.page _ member
        cases (parseU32_some.mp is).1.symm.trans is'
        exact out within
    | cursor fails =>
        obtain ⟨cursor, decoded⟩ := valid.cursor _ member
        cases fails.symm.trans decoded
    | tooMany family many => exact Nat.not_lt.mpr (valid.few family _ member) many
    | notAllowed family within no =>
        exact no (valid.allowed family _ member _ (List.mem_of_mem_take within))
  · rcases violates with many | ⟨within, no⟩ | ⟨within, known, no⟩
    · exact Nat.not_lt.mpr valid.filters many
    · obtain ⟨permitted, known, _⟩ := inFilters _ within
      cases no.symm.trans known
    · obtain ⟨permitted, known', operator, permits, named⟩ := inFilters _ within
      cases known.symm.trans known'
      exact no operator permits named

/-- A query that nothing is found in is permitted. -/
theorem valid_of_not_found (none : ∀ it, ¬Found contract pairs it) : Valid contract pairs := by
  have once : (pairs.map Prod.fst).Nodup := by
    refine List.nodup_iff_count_le_one.mpr fun key => Nat.le_of_not_lt fun twice => ?_
    exact none _ (.duplicate twice)
  have few : (filterPairs pairs).length ≤ contract.maxFilterTerms :=
    Nat.le_of_not_lt fun many => none _ (.filter (.tooMany many))
  refine ⟨once, fun pair member => ?_, fun text member => ?_, fun text member => ?_,
    fun family text member name within => ?_, fun family text member => ?_, few⟩
  · by_cases reserved : pair.1 ∈ reservedParameters
    · exact .inl reserved
    · have isFilter : isFilterKey pair.1 = true := by
        by_contra other
        exact none _ (.unknown member reserved (Bool.eq_false_iff.mpr other))
      have within : pair ∈ (filterPairs pairs).take contract.maxFilterTerms := by
        rw [List.take_of_length_le few]
        exact List.mem_filter.mpr ⟨member, isFilter⟩
      refine .inr ⟨isFilter, ?_⟩
      rcases judgeFilter_cases contract pair with ⟨no, _⟩ | ⟨_, known, no, _⟩ | ⟨_, permits, _, _⟩
      · exact absurd (.filter (.field within no)) (none _)
      · exact absurd (.filter (.operator within known no)) (none _)
      · exact permits
  · have first := lookup_of_mem once member
    cases parsed : parseU32 text with
    | none => exact absurd (.parameter first (.notNumber parsed)) (none _)
    | some size =>
        refine ⟨size, (parseU32_some.mp parsed).1, ?_⟩
        by_contra out
        exact none _ (.parameter first (.outOfRange parsed out))
  · cases decoded : Cursor.decode text with
    | ok cursor => exact ⟨cursor, rfl⟩
    | error error =>
        exact absurd (.parameter (lookup_of_mem once member) (.cursor decoded)) (none _)
  · by_contra no
    have first := lookup_of_mem once member
    have bound : (names text).length ≤ family.bound contract :=
      Nat.le_of_not_lt fun many => none _ (.parameter first (.tooMany family many))
    rw [← List.take_of_length_le bound] at within
    exact none _ (.parameter first (.notAllowed family within no))
  · refine Nat.le_of_not_lt fun many => ?_
    exact none _ (.parameter (lookup_of_mem once member) (.tooMany family many))

/-- Nothing is found exactly in the queries that the contract holds valid. -/
theorem found_nil_iff : found contract pairs = [] ↔ Valid contract pairs := by
  rw [List.eq_nil_iff_forall_not_mem]
  simp only [mem_found]
  exact ⟨valid_of_not_found, fun valid _ => not_found_of_valid valid⟩

/-! ## A query that is permitted is read as what it says -/

/-- Where judging an item accepts its value, the accepted list is that of the values. -/
theorem map_of_forall₂ {α β ε : Type} {judge : α → Except ε β} (value : α → β)
    (judged : ∀ item accepted, judge item = .ok accepted → accepted = value item) {list : List α}
    {accepted : List β}
    (all : List.Forall₂ (fun item accepted => judge item = .ok accepted) list accepted) :
    accepted = list.map value := by
  induction all with
  | nil => rfl
  | cons one _ ih => rw [List.map_cons, judged _ _ one, ih]

/-- A query in which nothing is found is read as what it denotes. -/
theorem readAs_denotes (none : found contract pairs = []) :
    Denotes contract pairs (readAs contract pairs) := by
  have valid := found_nil_iff.mp none
  have once := valid.once
  simp only [found, List.append_eq_nil_iff] at none
  obtain ⟨⟨⟨⟨⟨⟨⟨_, _⟩, page⟩, cur⟩, sorted⟩, inc⟩, sel⟩, fil⟩ := none
  have named : ∀ parameter allowlist bound given,
      (allowlistedList parameter allowlist bound given).2 = [] →
      (allowlistedList parameter allowlist bound given).1 = given.toList.flatMap names := by
    intro parameter allowlist bound given none
    cases given with
    | none => rfl
    | some text =>
        have accepted := (bounded_accepted none).2
        have same := map_of_forall₂ id (fun name accepted judged => by
          unfold judgeName at judged
          split at judged
          next => exact (Except.ok.inj judged).symm
          next => cases judged) accepted
        rw [allowlistedList, same]
        simp
  refine ⟨fun text member => ?_, fun absent => ?_, fun cursor => ?_, ?_, rfl, ?_, ?_, ?_⟩
  · have first := lookup_of_mem once member
    obtain ⟨size, is, within⟩ := valid.page text member
    have small : parseU32 text = some size := by
      refine parseU32_some.mpr ⟨is, ?_⟩
      exact within.2.trans_lt contract.page.maximum_lt
    show _ = some (pageSize contract (pairs.lookup "page_size")).1
    rw [first, pageSize, small, is]
    dsimp only
    rw [if_pos within]
  · have none : pairs.lookup "page_size" = none := by
      refine Option.eq_none_iff_forall_ne_some.mpr fun text first => ?_
      exact absent text (mem_of_lookup first)
    show (pageSize contract (pairs.lookup "page_size")).1 = _
    rw [none]
    rfl
  · show (cursorOf (pairs.lookup "cursor")).1 = some cursor ↔ _
    constructor
    · intro read
      cases first : pairs.lookup "cursor" with
      | none =>
          rw [first] at read
          cases read
      | some text =>
          refine ⟨text, mem_of_lookup first, ?_⟩
          rw [first, cursorOf] at read
          cases decoded : Cursor.decode text with
          | ok other =>
              rw [decoded] at read
              cases read
              rfl
          | error error =>
              rw [decoded] at read
              cases read
    · rintro ⟨text, member, decoded⟩
      rw [lookup_of_mem once member, cursorOf, decoded]
  · show (sortTerms contract (pairs.lookup "sort")).1 = _
    rw [textsOf_once once]
    cases given : pairs.lookup "sort" with
    | none => rfl
    | some text =>
        rw [given] at sorted
        have accepted := (bounded_accepted sorted).2
        rw [sortTerms, map_of_forall₂ sortTerm (fun raw accepted judged => by
          unfold judgeSort at judged
          split at judged
          next => exact (Except.ok.inj judged).symm
          next => cases judged) accepted]
        simp
  · rw [textsOf_once once]
    exact named _ _ _ _ inc
  · rw [textsOf_once once]
    exact named _ _ _ _ sel
  · refine (bounded_accepted fil).2.imp fun pair term judged => ?_
    obtain ⟨parts, value, _⟩ := judgeFilter_ok judged
    exact ⟨parts, value⟩

/-! ## What is named, and how -/

/-- The pointers of a collection's issues. -/
def pointers : List String := "filter" :: "query" :: reservedParameters

/-- Each of the pointers that are used is a pointer, and is shown as written. -/
theorem pointer_text : ∀ pointer ∈ pointers,
    ((Pointer.new pointer).getD wholeQuery).text = pointer := by
  decide +kernel

/-- An issue shows the pointer that it was made with. -/
theorem issue_text {pointer : String} (known : pointer ∈ pointers) (reason : Reason) :
    (issue pointer reason).pointer.text = pointer := pointer_text pointer known

/-- An issue tells the pointer and the reason that it was made of. -/
theorem issue_inj {pointer other : String} {reason reason' : Reason} (known : pointer ∈ pointers)
    (known' : other ∈ pointers) (same : issue pointer reason = issue other reason') :
    pointer = other ∧ reason = reason' := by
  refine ⟨?_, congrArg Issue.reason same⟩
  rw [← issue_text known reason, same, issue_text known' reason']

/-- A reserved parameter may be pointed at. -/
theorem pointer_of_reserved {name : String} (reserved : name ∈ reservedParameters) :
    name ∈ pointers := List.mem_cons_of_mem _ (List.mem_cons_of_mem _ reserved)

/-- What an unknown parameter is reported under is one of the pointers. -/
theorem queryPointer_known (key : String) : queryPointer key ∈ pointers := by
  unfold queryPointer
  split
  next => exact List.mem_cons_self
  next =>
    split
    next reserved => exact pointer_of_reserved reserved
    next => exact List.mem_cons_of_mem _ List.mem_cons_self

/-- The parameters of lists are reserved. -/
theorem ListFamily.reserved (family : ListFamily) : family.name ∈ reservedParameters := by
  cases family <;> decide

/-- What is judged on its own is a reserved parameter. -/
theorem Judged.reserved {name text : String} {reason : Reason}
    (judged : Judged contract name text reason) : name ∈ reservedParameters := by
  cases judged with
  | notNumber => decide
  | outOfRange => decide
  | cursor => decide
  | tooMany family => exact family.reserved
  | notAllowed family => exact family.reserved

/-- What is violated by one parameter is reserved, and is no duplicate. -/
theorem Violates.reserved {name text : String} {reason : Reason}
    (violates : Violates contract name text reason) :
    name ∈ reservedParameters ∧ reason ≠ .duplicateKey := by
  cases violates with
  | notNumber => decide
  | outOfRange => decide
  | cursor =>
      rename_i error _
      refine ⟨by decide, ?_⟩
      cases error <;> exact fun same => nomatch same
  | tooMany family => exact ⟨family.reserved, by decide⟩
  | notAllowed family => exact ⟨family.reserved, by decide⟩

/-- Each issue is of the query and points at a parameter, or at the query as a whole. -/
theorem Found.pointer {it : Issue} (is : Found contract pairs it) :
    it.location = .query ∧ it.pointer.text ∈ pointers := by
  refine ⟨by cases is <;> rfl, ?_⟩
  cases is with
  | duplicate =>
      rw [issue_text (queryPointer_known _)]
      exact queryPointer_known _
  | unknown => decide +kernel
  | parameter first judged =>
      rw [issue_text (pointer_of_reserved judged.reserved)]
      exact pointer_of_reserved judged.reserved
  | filter =>
      rw [issue_text List.mem_cons_self]
      exact List.mem_cons_self

/-- What is found of a parameter is found in its first text. -/
theorem Found.first {name : String} {reason : Reason} (reserved : name ∈ reservedParameters)
    (other : reason ≠ .duplicateKey) (is : Found contract pairs (issue name reason)) :
    ∃ first, pairs.lookup name = some first ∧ Judged contract name first reason := by
  have known := pointer_of_reserved reserved
  generalize same : issue name reason = it at is
  cases is with
  | duplicate => exact absurd (congrArg Issue.reason same) other
  | unknown =>
      rw [(issue_inj known (by decide) same).1] at reserved
      exact absurd reserved (by decide)
  | parameter first judged =>
      obtain ⟨rfl, rfl⟩ := issue_inj known (pointer_of_reserved judged.reserved) same
      exact ⟨_, first, judged⟩
  | filter =>
      rw [(issue_inj known List.mem_cons_self same).1] at reserved
      exact absurd reserved (by decide)

/-- A size that is found out of range is within 32 bits. -/
theorem Judged.within {name text : String}
    (judged : Judged contract name text .outOfRange) : ∃ size, parseU32 text = some size := by
  generalize named : Reason.outOfRange = reason at judged
  cases judged with
  | outOfRange is _ => exact ⟨_, is⟩
  | cursor =>
      rename_i error _
      cases error <;> cases named
  | notNumber => cases named
  | tooMany => cases named
  | notAllowed => cases named

/-- **Every kind of violation is found, and nothing else, just where none is missed.** -/
theorem found_violated_iff :
    (∀ it, Found contract pairs it ↔ Violated contract pairs it) ↔ Plain contract pairs := by
  constructor
  · intro all
    have page : ∀ text, pairs.lookup "page_size" = some text →
        ∀ size, unsignedOf text = some size → size < 2 ^ 32 := by
      intro text first size is
      by_contra past
      have out : ¬(contract.page.minimum ≤ size ∧ size ≤ contract.page.maximum) := by
        have bound := contract.page.maximum_lt
        omega
      have violated : Violated contract pairs (issue "page_size" .outOfRange) :=
        .parameter (mem_of_lookup first) (.outOfRange is out)
      obtain ⟨other, first', judged⟩ := ((all _).mpr violated).first (by decide) (by decide)
      cases first.symm.trans first'
      obtain ⟨size', is'⟩ := judged.within
      obtain ⟨same, small⟩ := parseU32_some.mp is'
      cases is.symm.trans same
      exact past small
    refine ⟨page, fun name first lookup text member reason violates => ?_⟩
    obtain ⟨reserved, other⟩ := violates.reserved
    have violated : Violated contract pairs (issue name reason) := .parameter member violates
    obtain ⟨other, first', judged⟩ := ((all _).mpr violated).first reserved other
    cases lookup.symm.trans first'
    exact (judged_iff fun same => by subst same; exact page first lookup).mp judged
  · intro plain it
    constructor
    · rintro (twice | ⟨member, unreserved, other⟩ | ⟨first, judged⟩ | violates)
      · exact .duplicate twice
      · exact .unknown member unreserved other
      · refine .parameter (mem_of_lookup first) ((judged_iff fun same => ?_).mp judged)
        subst same
        exact plain.page _ first
      · exact .filter violates
    · rintro (twice | ⟨member, unreserved, other⟩ | ⟨member, violates⟩ | violates)
      · exact .duplicate twice
      · exact .unknown member unreserved other
      · obtain ⟨first, lookup⟩ := exists_lookup member
        refine .parameter lookup ((judged_iff fun same => ?_).mpr
          (plain.later _ first lookup _ member _ violates))
        subst same
        exact plain.page _ lookup
      · exact .filter violates

/-- A valid query is plain: its page size is a small number, and no parameter is given again. -/
theorem plain_of_valid (valid : Valid contract pairs) : Plain contract pairs := by
  refine ⟨fun text first size is => ?_, fun name first lookup text member reason violates => ?_⟩
  · obtain ⟨size', is', _, most⟩ := valid.page text (mem_of_lookup first)
    cases is.symm.trans is'
    exact most.trans_lt contract.page.maximum_lt
  · cases lookup.symm.trans (lookup_of_mem valid.once member)
    exact violates

variable (contract pairs)

/-- **A query is read as it should be just where no kind of violation is missed**: no page size
is a number too large for its type, and a parameter that is given again violates nothing that its
first text does not. -/
theorem parse_exact_iff : Exact contract pairs ↔ Plain contract pairs := by
  unfold Exact parse
  by_cases none : found contract pairs = []
  · have valid := found_nil_iff.mp none
    rw [none]
    exact iff_of_true ⟨valid, readAs_denotes none⟩ (plain_of_valid valid)
  · rw [if_neg (by rwa [List.isEmpty_iff])]
    dsimp only
    have refused : ¬Valid contract pairs := fun valid => none (found_nil_iff.mpr valid)
    have some : report (found contract pairs) ≠ [] := by
      intro empty
      obtain ⟨it, member⟩ := List.exists_mem_of_ne_nil _ none
      have member := mem_report.mpr member
      rw [empty] at member
      cases member
    have place : ∀ it ∈ found contract pairs, it.location = .query :=
      fun it member => (mem_found.mp member).pointer.1
    have strict := report_strict .query place
    simp only [mem_report, mem_found]
    constructor
    · rintro ⟨_, _, _, all, _⟩
      exact found_violated_iff.mp all
    · intro plain
      exact ⟨refused, some, strict, found_violated_iff.mpr plain, fun it is => is.pointer.2⟩

/-! ## A page size past 32 bits -/

/-- A contract that permits a page size up to a hundred. -/
def pageContract : CollectionContract where
  page := ⟨25, 1, 100, by decide⟩
  filterable := []
  sortable := []
  includable := []
  selectable := []
  tiebreaker := "id"
  maxFilterTerms := 16
  maxSortTerms := 4
  maxIncludes := 8
  maxSelectedFields := 64

/-- A number past 32 bits is called no number, and not out of range. -/
theorem page_size_misnamed : ¬Exact pageContract [("page_size", "4294967296")] := by
  intro exactly
  have refused : parse pageContract [("page_size", "4294967296")] =
      .error [issue "page_size" .typeMismatch] := by
    decide +kernel
  rw [Exact, refused] at exactly
  have violated : Violated pageContract [("page_size", "4294967296")]
      (issue "page_size" .outOfRange) :=
    .parameter List.mem_cons_self (.outOfRange
      (show unsignedOf "4294967296" = some 4294967296 by decide +kernel) (by decide))
  have named := (exactly.2.2.2.1 _).mpr violated
  exact absurd named (by decide +kernel)

end Renvor.Validation
