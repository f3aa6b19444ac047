import Mathlib.Algebra.Order.Field.Rat
import Mathlib.Data.Nat.Log
import Mathlib.Tactic.Linarith
import Mathlib.Tactic.Positivity
import Mathlib.Tactic.Ring

/-! # Doubles

A finite double is a sign and a multiple of the smallest positive one, with at most
fifty-three significant bits. A number is rounded to the nearest, a tie to the even
one, and a double is written with the fewest digits that are rounded back to it.
-/

namespace Foundation.Binary64

/-- One is this power of two, in units. -/
@[irreducible] def oneBits : Nat := 1074

/-- How many of the smallest double make one. -/
def one : Nat := 2 ^ oneBits

theorem one_pos : 0 < one := Nat.two_pow_pos oneBits

/-- The bits below the last significant one. -/
def spacing (units : Nat) : Nat := units.log2 - 52

def maxSpacing : Nat := 2045

def fits (units : Nat) : Bool := units % 2 ^ spacing units = 0 && spacing units ≤ maxSpacing

/-- A number in units, rounded. -/
def nearest (numerator denominator : Nat) : Nat :=
  let shift := spacing (numerator / denominator)
  let step := denominator * 2 ^ shift
  let low := numerator / step
  let rest := numerator % step
  if 2 * rest < step ∨ (2 * rest = step ∧ low % 2 = 0) then low * 2 ^ shift
  else (low + 1) * 2 ^ shift

/-! ## Decimals -/

/-- Decimal places that are enough for every double. -/
@[irreducible] def places : Nat := 400

/-- The place of the first digit, counted from the last place. -/
def top (units : Nat) : Nat := Nat.log 10 (units * 10 ^ places / one)

/-- Digits that end at a place are rounded to a double. -/
def reads (digits place units : Nat) : Bool :=
  nearest (digits * 10 ^ place * one) (10 ^ places) = units

/-- So many digits, where they are enough: of the two next to a double the nearer one
that is read back, the larger of two that are as near. -/
def candidate (units count : Nat) : Option (Nat × Nat) :=
  let place := top units - (count - 1)
  let step := one * 10 ^ place
  let low := units * 10 ^ places / step
  let rest := units * 10 ^ places % step
  if reads low place units && (!reads (low + 1) place units || decide (2 * rest < step)) then
    some (low, place)
  else if reads (low + 1) place units then some (low + 1, place)
  else none

/-- Digits with no round number of tens before them. -/
def carried (count : Nat) : Nat × Nat → Nat × Nat
  | (digits, place) => if digits = 10 ^ count then (1, place + count) else (digits, place)

def maxDigits : Nat := 17

/-- The digits before a place. -/
def cut (units count : Nat) : Nat × Nat :=
  (units * 10 ^ places / (one * 10 ^ (top units - (count - 1))), top units - (count - 1))

/-- The fewest digits that are read back. -/
def shortestFrom (units : Nat) : Nat → Nat → Nat × Nat
  | 0, count => ((candidate units count).map (carried count)).getD (cut units count)
  | more + 1, count => ((candidate units count).map (carried count)).getD
      (shortestFrom units more (count + 1))

def shortest (units : Nat) : Nat × Nat := shortestFrom units (maxDigits - 1) 1

/-! ## How many digits there are -/

variable {units : Nat}

theorem two_pow_le (exponent : Nat) : 2 ^ (3 * exponent) ≤ 10 ^ exponent := by
  rw [Nat.pow_mul]
  exact Nat.pow_le_pow_left (by decide) exponent

/-- One has fewer digits than there are places, by sixteen. -/
theorem one_le : ∃ exponent, 16 + exponent ≤ places ∧ one ≤ 10 ^ exponent := by
  have bits : oneBits = 3 * 358 := by
    unfold oneBits
    rfl
  refine ⟨358, by unfold places; decide, ?_⟩
  rw [one, bits]
  exact two_pow_le 358

theorem scaled_large (positive : 0 < units) : 10 ^ 16 ≤ units * 10 ^ places / one := by
  obtain ⟨exponent, room, small⟩ := one_le
  rw [Nat.le_div_iff_mul_le one_pos]
  calc 10 ^ 16 * one ≤ 10 ^ 16 * 10 ^ exponent := Nat.mul_le_mul_left _ small
    _ = 10 ^ (16 + exponent) := (Nat.pow_add 10 16 exponent).symm
    _ ≤ 10 ^ places := Nat.pow_le_pow_right (by decide) room
    _ ≤ units * 10 ^ places := Nat.le_mul_of_pos_left _ positive

theorem top_large (positive : 0 < units) : 16 ≤ top units :=
  (Nat.le_log_iff_pow_le (by decide) (Nat.ne_of_gt
    (lt_of_lt_of_le (by positivity) (scaled_large positive)))).mpr (scaled_large positive)

/-- So many digits are what is before their place. -/
theorem cut_bounds (positive : 0 < units) {count : Nat} (some_digit : 0 < count) (few : count ≤ maxDigits) :
    10 ^ (count - 1) ≤ (cut units count).1 ∧ (cut units count).1 < 10 ^ count := by
  have high := top_large positive
  have some_scaled : units * 10 ^ places / one ≠ 0 := Nat.ne_of_gt
    (lt_of_lt_of_le (by positivity) (scaled_large positive))
  have below : 10 ^ top units ≤ units * 10 ^ places / one := Nat.pow_log_le_self 10 some_scaled
  have above : units * 10 ^ places / one < 10 ^ (top units + 1) :=
    Nat.lt_pow_succ_log_self (by decide) _
  have few : count ≤ 17 := few
  have place : count - 1 + (top units - (count - 1)) = top units := by omega
  have place' : count + (top units - (count - 1)) = top units + 1 := by omega
  simp only [cut]
  rw [← Nat.div_div_eq_div_mul]
  constructor
  · rw [Nat.le_div_iff_mul_le (by positivity), ← Nat.pow_add, place]
    exact below
  · rw [Nat.div_lt_iff_lt_mul (by positivity), ← Nat.pow_add, place']
    exact above

theorem candidate_bounds (positive : 0 < units) {count : Nat} (some_digit : 0 < count)
    (few : count ≤ maxDigits) {found : Nat × Nat} (is : candidate units count = some found) :
    (0 < (carried count found).1 ∧ (carried count found).1 < 10 ^ count) ∧
      (carried count found).2 ≤ top units + 1 := by
  obtain ⟨below, above⟩ := cut_bounds positive some_digit few
  have some_power : 0 < 10 ^ (count - 1) := by positivity
  have one_digit : 1 < 10 ^ count := Nat.one_lt_pow (by omega) (by decide)
  have few : count ≤ 17 := few
  have high := top_large positive
  simp only [cut] at below above
  unfold candidate at is
  simp only at is
  split at is
  · cases is
    rw [carried, if_neg (Nat.ne_of_lt above)]
    exact ⟨⟨by omega, above⟩, by omega⟩
  · split at is
    · cases is
      by_cases carry : units * 10 ^ places / (one * 10 ^ (top units - (count - 1))) + 1 = 10 ^ count
      · rw [carried, if_pos carry]
        exact ⟨⟨Nat.one_pos, one_digit⟩, by omega⟩
      · rw [carried, if_neg carry]
        exact ⟨⟨by omega, by omega⟩, by omega⟩
    · cases is

theorem shortestFrom_bounds (positive : 0 < units) {more count : Nat} (some_digit : 0 < count)
    (few : count + more = maxDigits) :
    (0 < (shortestFrom units more count).1 ∧ (shortestFrom units more count).1 < 10 ^ maxDigits) ∧
      (shortestFrom units more count).2 ≤ top units + 1 := by
  have wide : ∀ {digits : Nat}, count ≤ maxDigits → digits < 10 ^ count → digits < 10 ^ maxDigits :=
    fun few small => lt_of_lt_of_le small (Nat.pow_le_pow_right (by decide) few)
  induction more generalizing count with
  | zero =>
      have all : count ≤ maxDigits := le_of_eq few
      cases is : candidate units count with
      | some found =>
          obtain ⟨⟨some_found, small⟩, place⟩ := candidate_bounds positive some_digit all is
          rw [shortestFrom, is, Option.map_some, Option.getD_some]
          exact ⟨⟨some_found, wide all small⟩, place⟩
      | none =>
          obtain ⟨below, above⟩ := cut_bounds positive some_digit all
          have some_power : 0 < 10 ^ (count - 1) := Nat.pow_pos (by decide)
          rw [shortestFrom, is, Option.map_none, Option.getD_none]
          exact ⟨⟨lt_of_lt_of_le some_power below, wide all above⟩,
            Nat.le_succ_of_le (Nat.sub_le _ _)⟩
  | succ more ih =>
      have all : count ≤ maxDigits := by omega
      cases is : candidate units count with
      | some found =>
          obtain ⟨⟨some_found, small⟩, place⟩ := candidate_bounds positive some_digit all is
          rw [shortestFrom, is, Option.map_some, Option.getD_some]
          exact ⟨⟨some_found, wide all small⟩, place⟩
      | none =>
          rw [shortestFrom, is, Option.map_none, Option.getD_none]
          refine ih (by omega) (by omega) ?_
          exact fun few small => lt_of_lt_of_le small (Nat.pow_le_pow_right (by decide) few)

/-- **A double is written with one to seventeen digits.** -/
theorem shortest_bounds (positive : 0 < units) :
    0 < (shortest units).1 ∧ (shortest units).1 < 10 ^ maxDigits :=
  (shortestFrom_bounds positive (by decide) rfl).1

theorem fits_lt (fit : fits units = true) : ∃ exponent, exponent + places ≤ 1100 ∧
    units < 10 ^ exponent := by
  have bits : spacing units ≤ maxSpacing := by
    simp only [fits, Bool.and_eq_true, decide_eq_true_eq] at fit
    exact fit.2
  obtain ⟨exponent, room, wide⟩ : ∃ exponent, exponent + places ≤ 1100 ∧ 2097 < 3 * exponent :=
    ⟨700, by unfold places; decide, by decide⟩
  refine ⟨exponent, room, ?_⟩
  rcases Nat.eq_zero_or_pos units with none_ | positive
  · rw [none_]
    exact Nat.pow_pos (by decide)
  · have small : units.log2 < 3 * exponent := by
      unfold spacing maxSpacing at bits
      omega
    exact lt_of_lt_of_le ((Nat.log2_lt (Nat.ne_of_gt positive)).mp small) (two_pow_le _)

/-- The last digit is not far from the ones. -/
theorem shortest_place (positive : 0 < units) (fit : fits units = true) : (shortest units).2 ≤ 1100 := by
  have place := (shortestFrom_bounds positive (by decide) (rfl : 1 + (maxDigits - 1) = maxDigits)).2
  obtain ⟨exponent, room, small⟩ := fits_lt fit
  have scaled : units * 10 ^ places / one < 10 ^ (exponent + places) := by
    calc units * 10 ^ places / one ≤ units * 10 ^ places := Nat.div_le_self _ _
      _ < 10 ^ exponent * 10 ^ places := Nat.mul_lt_mul_of_pos_right small (by positivity)
      _ = 10 ^ (exponent + places) := (Nat.pow_add 10 exponent places).symm
  have high : top units < exponent + places := Nat.log_lt_of_lt_pow (Nat.ne_of_gt
    (lt_of_lt_of_le (by positivity) (scaled_large positive))) scaled
  unfold shortest
  omega

end Foundation.Binary64

namespace Foundation

structure Binary64 where
  negative : Bool
  units : Nat
  representable : Binary64.fits units = true
  deriving DecidableEq

end Foundation
