import Mathlib.Data.List.Sort

/-! # Reading rows a page at a time

Each page is the first rows, in order, of those that come after the last row of
the page before. Where the order tells every two rows apart, the pages visit each
row once and in order (`Foundation.Paging.visits`), there is one way to read them
(`Foundation.Paging.unique`), and it ends (`Foundation.Paging.ends`).
-/

namespace Foundation.Paging

universe u

variable {Row : Type u}

/-- An answer to a query for the first rows, in order, that match. -/
def Answers (before : Row → Row → Bool) (rows : List Row) (wanted : Row → Bool) (limit : Nat)
    (page : List Row) : Prop :=
  ∃ sorted : List Row, sorted.Perm (rows.filter wanted) ∧
    sorted.Pairwise (fun row other => before other row = false) ∧ page = sorted.take limit

/-- Pages read until one is short, each after the last row of the one before.
`seek` says which rows come after a position. -/
inductive Paged (before : Row → Row → Bool) (seek : Row → Row → Bool) (rows : List Row)
    (wanted : Row → Bool) (limit : Nat) : Option Row → List (List Row) → Prop
  | short {from' : Option Row} {page : List Row}
      (answers : Answers before rows (fun row => wanted row && from'.all (seek · row)) limit page)
      (short : page.length < limit) : Paged before seek rows wanted limit from' [page]
  | full {from' : Option Row} {page : List Row} {last : Row} {rest : List (List Row)}
      (answers : Answers before rows (fun row => wanted row && from'.all (seek · row)) limit page)
      (full : page.length = limit) (ends : page.getLast? = some last)
      (onward : Paged before seek rows wanted limit (some last) rest) :
      Paged before seek rows wanted limit from' (page :: rest)

/-- A strict weak order. -/
structure StrictWeak (before : Row → Row → Bool) : Prop where
  irrefl : ∀ row, before row row = false
  trans : ∀ first middle last, before first middle = true → before middle last = true →
    before first last = true
  weak : ∀ first middle last, before first last = true → before first middle = true ∨
    before middle last = true

/-- Neither comes before the other. -/
def tied (before : Row → Row → Bool) (row other : Row) : Bool :=
  !before row other && !before other row

/-- Orders by one and then, where it ties, by another. -/
def lex (first second : Row → Row → Bool) (row other : Row) : Bool :=
  first row other || tied first row other && second row other

/-- A strict weak order that tells the rows of a list apart. -/
structure Orders (before : Row → Row → Bool) (rows : List Row) : Prop extends StrictWeak before where
  apart : rows.Pairwise fun row other => before row other = true ∨ before other row = true

variable {before : Row → Row → Bool} {rows : List Row} {wanted : Row → Bool} {limit : Nat}

namespace StrictWeak

variable {first second : Row → Row → Bool}

theorem tied_iff {row other : Row} :
    tied before row other = true ↔ before row other = false ∧ before other row = false := by
  unfold tied
  rw [Bool.and_eq_true, Bool.not_eq_true', Bool.not_eq_true']

theorem lex_iff {row other : Row} : lex first second row other = true ↔
    first row other = true ∨ tied first row other = true ∧ second row other = true := by
  unfold lex
  rw [Bool.or_eq_true, Bool.and_eq_true]

theorem cases (row other : Row) :
    before row other = true ∨ before other row = true ∨ tied before row other = true := by
  cases forward : before row other with
  | true => exact .inl rfl
  | false =>
      cases back : before other row with
      | true => exact .inr (.inl rfl)
      | false => exact .inr (.inr (tied_iff.mpr ⟨forward, back⟩))

/-- What comes before a row comes before those tied with it. -/
theorem before_tied (order : StrictWeak before) {row middle other : Row}
    (less : before row middle = true) (tie : tied before middle other = true) :
    before row other = true := by
  obtain forward | back := order.weak row other middle less
  · exact forward
  · rw [(tied_iff.mp tie).2] at back
    cases back

theorem tied_before (order : StrictWeak before) {row middle other : Row}
    (tie : tied before row middle = true) (less : before middle other = true) :
    before row other = true := by
  obtain back | forward := order.weak middle row other less
  · rw [(tied_iff.mp tie).2] at back
    cases back
  · exact forward

theorem tied_symm {row other : Row} (tie : tied before row other = true) :
    tied before other row = true :=
  tied_iff.mpr (tied_iff.mp tie).symm

theorem tied_trans (order : StrictWeak before) {row middle other : Row}
    (one : tied before row middle = true) (two : tied before middle other = true) :
    tied before row other = true := by
  obtain less | less | tie := @cases _ before row other
  · have back := order.before_tied less (tied_symm two)
    rw [(tied_iff.mp one).1] at back
    cases back
  · have back := order.before_tied less one
    rw [(tied_iff.mp two).2] at back
    cases back
  · exact tie

/-- **Orders one after the other are an order.** -/
theorem lex (one : StrictWeak first) (two : StrictWeak second) :
    StrictWeak (Paging.lex first second) where
  irrefl row := by
    unfold Paging.lex
    rw [one.irrefl, two.irrefl, Bool.and_false, Bool.or_false]
  trans row middle other left right := by
    apply lex_iff.mpr
    obtain less | ⟨tie, less⟩ := lex_iff.mp left
    · obtain less' | ⟨tie', _⟩ := lex_iff.mp right
      · exact .inl (one.trans row middle other less less')
      · exact .inl (one.before_tied less tie')
    · obtain less' | ⟨tie', less'⟩ := lex_iff.mp right
      · exact .inl (one.tied_before tie less')
      · exact .inr ⟨one.tied_trans tie tie', two.trans row middle other less less'⟩
  weak row middle other less := by
    rw [lex_iff, lex_iff]
    obtain less | ⟨tie, less⟩ := lex_iff.mp less
    · exact (one.weak row middle other less).imp .inl .inl
    · obtain forward | back | tie' := @cases _ first row middle
      · exact .inl (.inl forward)
      · exact .inr (.inl (one.before_tied back tie))
      · have rest := one.tied_trans (tied_symm tie') tie
        exact (two.weak row middle other less).imp (fun less => .inr ⟨tie', less⟩)
          fun less => .inr ⟨rest, less⟩

end StrictWeak

namespace Orders

variable (orders : Orders before rows)

include orders

theorem asymm {first second : Row} (one : before first second = true)
    (two : before second first = true) : False := by
  have loop := orders.trans first second first one two
  rw [orders.irrefl first] at loop
  cases loop

/-- A sorted list of some of the rows is strictly sorted. -/
theorem strict {sorted : List Row} (perm : sorted.Perm (rows.filter wanted))
    (ordered : sorted.Pairwise fun row other => before other row = false) :
    sorted.Pairwise fun row other => before row other = true := by
  have apart : sorted.Pairwise fun row other => before row other = true ∨ before other row = true :=
    perm.symm.pairwise (orders.apart.sublist List.filter_sublist) Or.symm
  refine (apart.and ordered).imp ?_
  rintro row other ⟨forward | backward, not⟩
  · exact forward
  · rw [not] at backward
    cases backward

/-- Rows can be sorted. -/
theorem sorts (matching : List Row) : ∃ sorted : List Row, sorted.Perm matching ∧
    sorted.Pairwise fun row other => before other row = false := by
  let le := fun row other => !before other row
  have trans : ∀ first middle last, le first middle = true → le middle last = true →
      le first last = true := by
    intro first middle last one two
    rw [Bool.not_eq_true'] at one two ⊢
    apply Bool.eq_false_iff.mpr
    intro back
    obtain other | other := orders.weak last middle first back
    · rw [two] at other
      cases other
    · rw [one] at other
      cases other
  have total : ∀ row other, (le row other || le other row) = true := by
    intro row other
    cases forward : before row other with
    | false => simp [le, forward]
    | true =>
        have back : before other row = false :=
          Bool.eq_false_iff.mpr fun back => orders.asymm forward back
        simp [le, back]
  refine ⟨matching.mergeSort le, List.mergeSort_perm .., ?_⟩
  refine (List.pairwise_mergeSort trans total matching).imp ?_
  exact fun {row other} ordered => Bool.not_eq_true' _ ▸ ordered

/-- There is one sorted list of the rows that match. -/
theorem sorted_unique {one two : List Row} (first : one.Perm (rows.filter wanted))
    (second : two.Perm (rows.filter wanted))
    (left : one.Pairwise fun row other => before other row = false)
    (right : two.Pairwise fun row other => before other row = false) : one = two := by
  apply @List.Perm.eq_of_pairwise _ (fun row other => before row other = true)
  · intro row other _ _ forward backward
    exact (orders.asymm forward backward).elim
  · exact orders.strict first left
  · exact orders.strict second right
  · exact first.trans second.symm

end Orders

/-- The rows after the last one of a full page are those that the page leaves. -/
theorem after_last (orders : Orders before rows) {sorted page : List Row} {last : Row}
    (strict : sorted.Pairwise fun row other => before row other = true)
    (page_eq : page = sorted.take limit) (ends : page.getLast? = some last) :
    sorted.filter (before last) = sorted.drop limit := by
  have split := List.take_append_drop limit sorted
  rw [← page_eq] at split
  rw [← split, List.pairwise_append] at strict
  obtain ⟨inside, _, across⟩ := strict
  have member := List.mem_of_getLast? ends
  have none : page.filter (before last) = [] := by
    apply List.filter_eq_nil_iff.mpr
    intro row among after
    obtain ⟨front, rfl⟩ := List.getLast?_eq_some_iff.mp ends
    obtain early | same := List.mem_append.mp among
    · have forward := (List.pairwise_append.mp inside).2.2 row early last (by simp)
      exact orders.asymm forward after
    · rw [List.mem_singleton.mp same, orders.irrefl] at after
      cases after
  have all : (sorted.drop limit).filter (before last) = sorted.drop limit := by
    apply List.filter_eq_self.mpr
    exact fun row among => across last member row among
  calc sorted.filter (before last)
      = (page ++ sorted.drop limit).filter (before last) := by rw [split]
    _ = page.filter (before last) ++ (sorted.drop limit).filter (before last) :=
        List.filter_append ..
    _ = sorted.drop limit := by rw [none, all, List.nil_append]

/-- What the rows after a page's last one are, of all the rows. -/
theorem onward_perm (orders : Orders before rows) {from' : Option Row} {sorted page : List Row}
    {last : Row} (perm : sorted.Perm (rows.filter fun row => wanted row && from'.all (before · row)))
    (strict : sorted.Pairwise fun row other => before row other = true)
    (page_eq : page = sorted.take limit) (ends : page.getLast? = some last) :
    (rows.filter fun row => wanted row && (some last).all (before · row)).Perm
      (sorted.drop limit) := by
  rw [← after_last orders strict page_eq ends]
  refine List.Perm.trans ?_ (perm.filter _).symm
  rw [List.filter_filter]
  apply List.Perm.of_eq
  apply List.filter_congr
  intro row _
  have among : last ∈ sorted := by
    rw [page_eq] at ends
    exact List.mem_of_mem_take (List.mem_of_getLast? ends)
  have position := (List.mem_filter.mp (perm.mem_iff.mp among)).2
  cases after : before last row with
  | false => simp [after]
  | true =>
      cases from' with
      | none => simp [after]
      | some start =>
          rw [Bool.and_eq_true] at position
          have further := orders.trans start last row position.2 after
          simp [after, further]

/-- **Pages visit every row once, and in order.** -/
theorem visits (orders : Orders before rows) {from' : Option Row} {pages : List (List Row)}
    (paged : Paged before before rows wanted limit from' pages) :
    pages.flatten.Perm (rows.filter fun row => wanted row && from'.all (before · row)) ∧
      pages.flatten.Pairwise fun row other => before row other = true := by
  induction paged with
  | @short from' page answers short =>
      obtain ⟨sorted, perm, ordered, rfl⟩ := answers
      rw [List.length_take] at short
      have whole : sorted.take limit = sorted := List.take_of_length_le (by omega)
      rw [List.flatten_singleton, whole]
      exact ⟨perm, orders.strict perm ordered⟩
  | @full from' page last rest answers full ends onward ih =>
      obtain ⟨sorted, perm, ordered, page_eq⟩ := answers
      have strict := orders.strict perm ordered
      have left := onward_perm orders perm strict page_eq ends
      obtain ⟨others, sequel⟩ := ih
      rw [List.flatten_cons]
      constructor
      · refine List.Perm.trans ?_ perm
        rw [← List.take_append_drop limit sorted, ← page_eq]
        exact (others.trans left).append_left page
      · rw [← List.take_append_drop limit sorted, ← page_eq, List.pairwise_append] at strict
        refine List.pairwise_append.mpr ⟨strict.1, sequel, fun row early other late => ?_⟩
        exact strict.2.2 row early other ((others.trans left).mem_iff.mp late)

/-- There is one way to read the pages. -/
theorem unique (orders : Orders before rows) {from' : Option Row} {pages others : List (List Row)}
    (paged : Paged before before rows wanted limit from' pages)
    (again : Paged before before rows wanted limit from' others) : pages = others := by
  have same : ∀ {from' : Option Row} {page other : List Row},
      Answers before rows (fun row => wanted row && from'.all (before · row)) limit page →
      Answers before rows (fun row => wanted row && from'.all (before · row)) limit other →
      page = other := by
    rintro from' page other ⟨one, first, left, rfl⟩ ⟨two, second, right, rfl⟩
    rw [orders.sorted_unique first second left right]
  induction paged generalizing others with
  | @short from' page answers short =>
      cases again with
      | short answers' _ => rw [same answers answers']
      | full answers' full _ _ =>
          rw [same answers answers'] at short
          omega
  | @full from' page last rest answers full ends onward ih =>
      cases again with
      | short answers' short =>
          rw [same answers answers'] at full
          omega
      | full answers' _ ends' onward' =>
          obtain rfl := same answers answers'
          obtain rfl := Option.some.inj (ends.symm.trans ends')
          rw [ih onward']

/-- **Reading ends**: some page is short. -/
theorem ends (orders : Orders before rows) (positive : 0 < limit) (from' : Option Row) :
    ∃ pages, Paged before before rows wanted limit from' pages := by
  generalize size : (rows.filter fun row => wanted row && from'.all (before · row)).length = count
  induction count using Nat.strong_induction_on generalizing from' with
  | _ count ih =>
      obtain ⟨sorted, perm, ordered⟩ :=
        orders.sorts (rows.filter fun row => wanted row && from'.all (before · row))
      have answers : Answers before rows (fun row => wanted row && from'.all (before · row)) limit
          (sorted.take limit) := ⟨sorted, perm, ordered, rfl⟩
      by_cases short : (sorted.take limit).length < limit
      · exact ⟨_, .short answers short⟩
      · have full : (sorted.take limit).length = limit := by
          have most := List.length_take_le limit sorted
          omega
        obtain ⟨last, ends⟩ : ∃ last, (sorted.take limit).getLast? = some last := by
          cases page : (sorted.take limit).getLast? with
          | some last => exact ⟨last, rfl⟩
          | none =>
              rw [List.getLast?_eq_none_iff.mp page] at full
              rw [← full] at positive
              cases positive
        have left := onward_perm orders perm (orders.strict perm ordered) rfl ends
        have fewer : (sorted.drop limit).length < count := by
          have length := perm.length_eq
          rw [List.length_take] at full
          rw [List.length_drop]
          omega
        obtain ⟨rest, onward⟩ := ih _ fewer (some last) left.length_eq
        exact ⟨_, .full answers full ends onward⟩

/-- The rows of an answer are wanted rows. -/
theorem Answers.mem {matched : Row → Bool} {page : List Row} {row : Row}
    (answers : Answers before rows matched limit page) (member : row ∈ page) :
    row ∈ rows ∧ matched row = true := by
  obtain ⟨sorted, perm, _, rfl⟩ := answers
  exact List.mem_filter.mp (perm.mem_iff.mp (List.mem_of_mem_take member))

/-- **Pages are read alike where the rows that are read are resumed alike.** -/
theorem Paged.congr {seek seek' : Row → Row → Bool} {from' : Option Row} {pages : List (List Row)}
    (paged : Paged before seek rows wanted limit from' pages)
    (same : ∀ last ∈ rows, wanted last = true → seek last = seek' last)
    (start : ∀ last ∈ from', seek last = seek' last) :
    Paged before seek' rows wanted limit from' pages := by
  have matched : ∀ {from' : Option Row}, (∀ last ∈ from', seek last = seek' last) →
      (fun row => wanted row && from'.all (seek · row)) =
        fun row => wanted row && from'.all (seek' · row) := by
    intro from' start
    cases from' with
    | none => rfl
    | some last =>
        funext row
        rw [Option.all_some, Option.all_some, start last rfl]
  induction paged with
  | short answers short =>
      rw [matched start] at answers
      exact .short answers short
  | full answers full ends onward ih =>
      obtain ⟨among, meets⟩ := answers.mem (List.mem_of_getLast? ends)
      have onward := ih fun last same' => by
        obtain rfl := Option.some.inj same'
        exact same _ among (Bool.and_eq_true_iff.mp meets).1
      rw [matched start] at answers
      exact .full answers full ends onward

end Foundation.Paging
