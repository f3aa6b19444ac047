import Mathlib.Order.Lattice

/-! # Counting in windows

Time is divided into windows of one length. A counter holds the count of its
window and of the one before, each up to a ceiling, and forgets the rest
(`Foundation.Windows.Counter.Tally.next`).
-/

namespace Foundation.Windows

/-- The start of the window that contains a time. -/
def start (window now : Int) : Int := now / window * window

section Start

variable {window now later : Int}

theorem start_le (positive : 0 < window) (now : Int) : start window now ≤ now :=
  Int.ediv_mul_le now (ne_of_gt positive)

theorem lt_start (positive : 0 < window) (now : Int) : now < start window now + window := by
  have below := Int.lt_ediv_add_one_mul_self now positive
  rwa [Int.add_mul, Int.one_mul] at below

theorem start_mono (positive : 0 < window) (forward : now ≤ later) :
    start window now ≤ start window later :=
  Int.mul_le_mul_of_nonneg_right (Int.ediv_le_ediv positive forward) (Int.le_of_lt positive)

/-- Windows that do not start together are at least one window apart. -/
theorem start_apart (positive : 0 < window) (earlier : start window now < start window later) :
    start window now ≤ start window later - window := by
  unfold start at earlier ⊢
  have less := Int.lt_of_mul_lt_mul_right earlier (Int.le_of_lt positive)
  have le := Int.mul_le_mul_of_nonneg_right (Int.add_one_le_of_lt less) (Int.le_of_lt positive)
  rw [Int.add_mul, Int.one_mul] at le
  omega

/-- Of two windows in order, the later one is the same or starts after the
earlier one ends. -/
theorem start_cases (positive : 0 < window) (forward : now ≤ later) :
    start window now = start window later ∨ start window now ≤ start window later - window := by
  have le := start_mono positive forward
  by_cases same : start window now = start window later
  · exact .inl same
  · exact .inr (start_apart positive (by omega))

/-- A time is in a window where it starts the same one. -/
theorem start_eq_iff (positive : 0 < window) (now later : Int) :
    start window now = start window later ↔
      start window later ≤ now ∧ now < start window later + window := by
  constructor
  · intro same
    rw [← same]
    exact ⟨start_le positive now, lt_start positive now⟩
  · rintro ⟨from', until'⟩
    have below := start_le positive now
    have above := lt_start positive now
    by_contra different
    obtain earlier | after := Int.lt_or_gt_of_ne different
    · have := start_apart positive earlier
      omega
    · have := start_apart positive after
      omega

theorem start_sub (positive : 0 < window) : start window (now - window) = start window now - window := by
  unfold start
  have whole : now - window = now + window * -1 := by omega
  rw [whole, Int.add_mul_ediv_left now (-1) (ne_of_gt positive), Int.add_mul]
  omega

end Start

/-- The counts of a window and of the one before it. -/
structure Counter where
  start : Int
  current : Nat
  previous : Nat

namespace Counter

/-- Counts once more, in a window that starts no earlier. -/
def next (ceiling : Nat) (window : Int) (opened : Int) (counter : Counter) : Counter where
  start := opened
  current := if counter.start = opened then min (counter.current + 1) ceiling else 1
  previous :=
    if counter.start = opened then counter.previous
    else if counter.start = opened - window then counter.current
    else 0

/-- The counter has the counts of its window and of the one before, up to the
ceiling, and nothing was counted later. -/
structure Tally (counts : Int → Nat) (ceiling : Nat) (window : Int) (counter : Counter) : Prop where
  current : counter.current = min (counts counter.start) ceiling
  previous : counter.previous = min (counts (counter.start - window)) ceiling
  latest : ∀ opened, counts opened ≠ 0 → opened ≤ counter.start

variable {counts : Int → Nat} {ceiling : Nat} {window opened : Int} {counter : Counter}

/-- **The next counter has the next counts.** -/
theorem Tally.next (tally : counter.Tally counts ceiling window) (some : 0 < ceiling)
    (positive : 0 < window)
    (behind : counter.start = opened ∨ counter.start ≤ opened - window) :
    (counter.next ceiling window opened).Tally
      (fun start => if start = opened then counts start + 1 else counts start) ceiling window := by
  have unseen : ∀ start, counter.start < start → counts start = 0 := by
    intro start later
    by_contra counted
    have := tally.latest start counted
    omega
  have current := tally.current
  have previous := tally.previous
  constructor
  · show (if counter.start = opened then min (counter.current + 1) ceiling else 1) =
      min (if opened = opened then counts opened + 1 else counts opened) ceiling
    rw [if_pos rfl]
    split
    next same =>
      rw [same] at current
      omega
    next =>
      have none := unseen opened (by omega)
      omega
  · show (if counter.start = opened then counter.previous
        else if counter.start = opened - window then counter.current else 0) =
      min (if opened - window = opened then counts (opened - window) + 1
        else counts (opened - window)) ceiling
    have different : opened - window ≠ opened := by omega
    rw [if_neg different]
    split
    next same =>
      rw [← same]
      exact previous
    next =>
      split
      next rolled =>
        rw [← rolled]
        exact current
      next =>
        have none := unseen (opened - window) (by omega)
        omega
  · intro start counted
    show start ≤ opened
    by_cases same : start = opened
    · exact le_of_eq same
    · rw [if_neg same] at counted
      have := tally.latest start counted
      omega

/-- A counter at zero has the counts where nothing was counted since the window
before. -/
theorem Tally.zero (old : ∀ start, counts start ≠ 0 → start < opened - window)
    (positive : 0 < window) : (Counter.mk opened 0 0).Tally counts ceiling window := by
  have none : ∀ start, opened - window ≤ start → counts start = 0 := by
    intro start recent
    by_contra counted
    have := old start counted
    omega
  constructor
  · have current := none opened (by omega)
    show 0 = min (counts opened) ceiling
    omega
  · have previous := none (opened - window) le_rfl
    show 0 = min (counts (opened - window)) ceiling
    omega
  · intro start counted
    have := old start counted
    show start ≤ opened
    omega

/-- What the next counter reads. -/
theorem Tally.next_eq (tally : counter.Tally counts ceiling window) (some : 0 < ceiling)
    (positive : 0 < window)
    (behind : counter.start = opened ∨ counter.start ≤ opened - window) :
    counter.next ceiling window opened =
      ⟨opened, min (counts opened + 1) ceiling, min (counts (opened - window)) ceiling⟩ := by
  have next := tally.next some positive behind
  have current := next.current
  have previous := next.previous
  have same : (counter.next ceiling window opened).start = opened := rfl
  rw [same, if_pos rfl] at current
  rw [same, if_neg (by omega)] at previous
  rw [← current, ← previous]
  rfl

end Counter

end Foundation.Windows
