import Mathlib.Algebra.Field.Rat
import Mathlib.Algebra.Order.Field.Power
import Mathlib.Tactic.NormNum
import Renvor.Foundation.Binary64Digits
import Renvor.Foundation.Digits
import Renvor.Kernel.Text

/-! # Multiples of a step

A double is the decimal that it prints as, and whether one is a multiple of another is
asked of these decimals, in integers of a hundred and twenty-eight bits.
-/

namespace Renvor.Validation

open Foundation

/-- An integer that so many bits hold, or nothing. -/
def fit (bits : Nat) (number : Int) : Option Int :=
  if -2 ^ (bits - 1) ≤ number ∧ number < 2 ^ (bits - 1) then some number else none

/-- The integer that digits write, after a sign or none. -/
def parseInt (bits : Nat) (text : List Char) : Option Int :=
  let (negative, digits) := match text with
    | '-' :: digits => (true, digits)
    | '+' :: digits => (false, digits)
    | digits => (false, digits)
  if digits.isEmpty || !digits.all Digits.isDigit then none
  else fit bits (if negative then -(Digits.number digits : Int) else Digits.number digits)

def renderInt (number : Int) : List Char :=
  if number < 0 then '-' :: Digits.padded 1 number.natAbs else Digits.padded 1 number.natAbs

def signText (negative : Bool) : List Char := if negative then ['-'] else []

/-- Digits that end at a place, in scientific form. -/
def scientific (negative : Bool) (digits place : Nat) : List Char :=
  match Digits.padded 1 digits with
  | [] => []
  | first :: rest =>
      signText negative ++ first :: (if rest.isEmpty then [] else '.' :: rest) ++
        'e' :: renderInt (place + rest.length - Binary64.places)

/-- A double in scientific form. -/
def lowerExp (value : Binary64) : List Char :=
  if value.units = 0 then signText value.negative ++ ['0', 'e', '0']
  else scientific value.negative (Binary64.shortest value.units).1 (Binary64.shortest value.units).2

/-- A rendering as a mantissa and how many decimals it has. -/
def readParts (rendered : List Char) : Option (Int × Int) := do
  let (significand, exponent) ← splitOnce ['e'] rendered
  let exponent ← parseInt 32 exponent
  let (whole, fraction) := (splitOnce ['.'] significand).getD (significand, [])
  let places ← fit 32 fraction.length
  let mantissa ← parseInt 128 (whole ++ fraction)
  let decimals ← fit 32 (places - exponent)
  some (mantissa, decimals)

/-- A double as the decimal it prints as. -/
def decimalParts (value : Binary64) : Option (Int × Int) := readParts (lowerExp value)

/-- The remainder of a number with so many zeros put after it. -/
def remainderAfter (divisor : Int) : Nat → Int → Option Int
  | 0, remainder => some remainder
  | places + 1, remainder => do
      let scaled ← fit 128 (remainder * 10)
      remainderAfter divisor places (scaled.tmod divisor)

/-- How many more decimals there are than are shared. -/
def placesOver (decimals shared : Int) : Option Nat := do
  let places ← fit 32 (decimals - shared)
  if 0 ≤ places then some places.toNat else none

/-- Whether a decimal is a multiple of another. -/
def multipleOfParts (valueMantissa valueDecimals stepMantissa stepDecimals : Int) : Option Bool := do
  let numerator ← fit 128 valueMantissa.natAbs
  let divisor ← fit 128 stepMantissa.natAbs
  if divisor = 0 then none
  else do
    let shared := min valueDecimals stepDecimals
    let numeratorPlaces ← placesOver stepDecimals shared
    let divisorPlaces ← placesOver valueDecimals shared
    if divisorPlaces = 0 then do
      let remainder ← remainderAfter divisor numeratorPlaces (numerator.tmod divisor)
      some (remainder = 0)
    else match (fit 128 (10 ^ divisorPlaces)).bind fun scale => fit 128 (divisor * scale) with
      | some scaled => some (numerator.tmod scaled = 0)
      | none => some false

def isExactMultiple (value step : Binary64) : Option Bool :=
  if value.units = 0 then some true
  else (decimalParts value).bind fun parts => (decimalParts step).bind fun other =>
    multipleOfParts parts.1 parts.2 other.1 other.2

/-! ## Reading what is printed -/

variable {bits : Nat} {number : Int}

theorem fit_some (low : -2 ^ (bits - 1) ≤ number) (high : number < 2 ^ (bits - 1)) :
    fit bits number = some number := if_pos ⟨low, high⟩

theorem padded_digit {count : Nat} {character : Char} (held : character ∈ Digits.padded 1 count) :
    Digits.isDigit character = true ∧ character ≠ '-' ∧ character ≠ '+' ∧ character ≠ 'e' ∧
      character ≠ '.' := by
  have digit := Digits.isDigit_padded held
  refine ⟨digit, ?_, ?_, ?_, ?_⟩ <;>
  · rintro rfl
    revert digit
    decide

theorem mem_signText {negative : Bool} {character : Char} (held : character ∈ signText negative) :
    character = '-' := by
  cases negative with
  | true => exact List.mem_singleton.mp held
  | false => exact nomatch held

theorem padded_parse (bits count : Nat) (negative : Bool) :
    parseInt bits (signText negative ++ Digits.padded 1 count) =
      fit bits (if negative then -(count : Int) else count) := by
  have written : (Digits.padded 1 count).isEmpty = false := by
    rw [List.isEmpty_eq_false_iff]
    exact Digits.padded_ne_nil (by decide)
  have digits : (Digits.padded 1 count).all Digits.isDigit = true :=
    List.all_eq_true.mpr fun character held => (padded_digit held).1
  cases negative with
  | true =>
      simp only [parseInt, signText, ↓reduceIte, List.cons_append, List.nil_append, written, digits,
        Bool.not_true, Bool.or_self, Bool.false_eq_true, Digits.number_padded]
  | false =>
      have plain : (match Digits.padded 1 count with
          | '-' :: digits => (true, digits)
          | '+' :: digits => (false, digits)
          | digits => (false, digits)) = (false, Digits.padded 1 count) := by
        split
        next digits shape =>
          exact ((padded_digit (shape ▸ List.mem_cons_self : '-' ∈ _)).2.1 rfl).elim
        next digits shape =>
          exact ((padded_digit (shape ▸ List.mem_cons_self : '+' ∈ _)).2.2.1 rfl).elim
        next => rfl
      simp only [parseInt, signText, Bool.false_eq_true, ↓reduceIte, List.nil_append, plain, written, digits,
        Bool.not_true, Bool.or_self, Digits.number_padded]

theorem parseInt_renderInt (bits : Nat) (number : Int) :
    parseInt bits (renderInt number) = fit bits number := by
  unfold renderInt
  split
  next negative =>
    have read := padded_parse bits number.natAbs true
    have whole : -(number.natAbs : Int) = number := by omega
    simpa only [signText, ↓reduceIte, List.cons_append, List.nil_append, whole] using read
  next negative =>
    have read := padded_parse bits number.natAbs false
    have whole : (number.natAbs : Int) = number := by omega
    simpa only [signText, Bool.false_eq_true, ↓reduceIte, List.nil_append, whole] using read

theorem places_eq : Binary64.places = 400 := by
  unfold Binary64.places
  rfl

theorem length_padded_le {count width : Nat} (fits : count < 10 ^ width) (wide : 1 ≤ width) :
    (Digits.padded 1 count).length ≤ width := by
  have short := (Nat.digits_length_le_iff (by decide) count).mpr fits
  simp only [Digits.padded, List.length_map, List.length_reverse, List.length_append,
    List.length_replicate]
  omega

/-- What is before the point, and what is after it. -/
theorem significand_parts {sign rest : List Char} {first : Char}
    (plain : '.' ∉ sign ++ first :: rest) :
    (splitOnce ['.'] (sign ++ first :: (if rest.isEmpty then [] else '.' :: rest))).getD
        (sign ++ first :: (if rest.isEmpty then [] else '.' :: rest), []) =
      (sign ++ [first], rest) := by
  cases rest with
  | nil =>
      rw [if_pos (by rfl), splitOnce_none.mpr plain]
      rfl
  | cons second rest =>
      have absent : '.' ∉ sign ++ [first] := by
        intro held
        apply plain
        simp only [List.mem_append, List.mem_singleton] at held
        simp only [List.mem_append, List.mem_cons]
        tauto
      have shape : sign ++ first :: '.' :: second :: rest =
          (sign ++ [first]) ++ '.' :: second :: rest := by simp
      rw [if_neg (by simp), shape, splitOnce_cons absent]
      rfl

/-- Seventeen digits are held, with their sign. -/
theorem fit_mantissa {digits : Nat} (small : digits < 10 ^ 17) (negative : Bool) :
    fit 128 (if negative then -(digits : Int) else digits) =
      some (if negative then -(digits : Int) else digits) := by
  have power : (10 : Nat) ^ 17 < 2 ^ (128 - 1) := by decide
  have held : digits < 2 ^ (128 - 1) := lt_trans small power
  have held : (digits : Int) < 2 ^ (128 - 1) := by exact_mod_cast held
  apply fit_some <;> split <;> omega

/-- The decimal that a double prints as. -/
def mantissa (value : Binary64) : Int :=
  if value.units = 0 then 0
  else if value.negative then -((Binary64.shortest value.units).1 : Int)
  else (Binary64.shortest value.units).1

def decimals (value : Binary64) : Int :=
  if value.units = 0 then 0 else Binary64.places - ((Binary64.shortest value.units).2 : Int)

theorem mantissa_bounds (value : Binary64) :
    (mantissa value).natAbs < 10 ^ 17 ∧ ((mantissa value).natAbs = 0 ↔ value.units = 0) := by
  unfold mantissa
  split
  next none_ => simp [none_]
  next some_ =>
    have bounds := Binary64.shortest_bounds (Nat.pos_of_ne_zero some_)
    have small : (Binary64.shortest value.units).1 < 10 ^ 17 := bounds.2
    split <;> omega

theorem decimals_bounds (value : Binary64) : -700 ≤ decimals value ∧ decimals value ≤ 400 := by
  unfold decimals
  split
  next => decide
  next some_ =>
    have place := Binary64.shortest_place (Nat.pos_of_ne_zero some_) value.representable
    rw [places_eq]
    omega

theorem scientific_marks {negative : Bool} {digits : Nat} {mark : Char}
    (which : mark = 'e' ∨ mark = '.') : mark ∉ signText negative ++ Digits.padded 1 digits := by
  intro held
  rcases List.mem_append.mp held with sign | digit
  · have minus := mem_signText sign
    subst minus
    revert which
    decide
  · have facts := padded_digit digit
    rcases which with rfl | rfl
    · exact facts.2.2.2.1 rfl
    · exact facts.2.2.2.2 rfl

/-- **What is printed is read back.** -/
theorem readParts_scientific {negative : Bool} {digits place : Nat} (small : digits < 10 ^ 17)
    (near : place ≤ 1100) :
    readParts (scientific negative digits place) =
      some (if negative then -(digits : Int) else digits, Binary64.places - (place : Int)) := by
  have short : (Digits.padded 1 digits).length ≤ 17 := length_padded_le small (by decide)
  have plain : ∀ mark, mark = 'e' ∨ mark = '.' →
      mark ∉ signText negative ++ Digits.padded 1 digits := fun mark which => scientific_marks which
  have read := padded_parse 128 digits negative
  unfold scientific
  cases text : Digits.padded 1 digits with
  | nil => exact (Digits.padded_ne_nil (by decide) text).elim
  | cons first rest =>
      rw [text] at plain short read
      have absent : 'e' ∉ signText negative ++
          first :: (if rest.isEmpty then [] else '.' :: rest) := by
        have none_e := plain 'e' (.inl rfl)
        cases rest with
        | nil => exact none_e
        | cons second rest =>
            intro held
            apply none_e
            simp only [List.isEmpty_cons, Bool.false_eq_true, ↓reduceIte, List.mem_append,
              List.mem_cons] at held ⊢
            rcases held with sign | same | same | same | held
            · exact .inl sign
            · exact .inr (.inl same)
            · exact absurd same (by decide)
            · exact .inr (.inr (.inl same))
            · exact .inr (.inr (.inr held))
      have count : rest.length ≤ 16 := by
        rw [List.length_cons] at short
        omega
      have whole : parseInt 128 (signText negative ++ [first] ++ rest) =
          some (if negative then -(digits : Int) else digits) := by
        rw [List.append_assoc, List.singleton_append, read, fit_mantissa small]
      have exponent := @fit_some 32 ((place : Int) + rest.length - Binary64.places)
        (by rw [places_eq]; omega) (by rw [places_eq]; omega)
      have fraction := @fit_some 32 (rest.length : Int) (by omega) (by omega)
      have decimals := @fit_some 32 (Binary64.places - (place : Int))
        (by rw [places_eq]; omega) (by rw [places_eq]; omega)
      have same : (rest.length : Int) - (place + rest.length - Binary64.places) =
          Binary64.places - place := by omega
      unfold readParts
      simp only [splitOnce_cons absent, Option.bind_eq_bind, Option.bind_some, parseInt_renderInt,
        significand_parts (plain '.' (.inr rfl)), exponent, fraction, whole, same, decimals]

/-- **The decimal parser reads every double.** -/
theorem decimalParts_eq (value : Binary64) :
    decimalParts value = some (mantissa value, decimals value) := by
  unfold decimalParts lowerExp mantissa decimals
  split
  next => cases value.negative <;> decide
  next some_ =>
    have bounds := Binary64.shortest_bounds (Nat.pos_of_ne_zero some_)
    have place := Binary64.shortest_place (Nat.pos_of_ne_zero some_) value.representable
    exact readParts_scientific bounds.2 place

/-! ## Multiples -/

/-- The decimals that there are over those that are shared. -/
def extra (decimals other : Int) : Nat := (decimals - min decimals other).toNat

/-- A mantissa with so many decimals. -/
def scaled (mantissa decimals : Int) : ℚ := mantissa * (10 : ℚ) ^ (-decimals)

section Parts

variable {value step valueDecimals stepDecimals : Int}

/-- **A multiple of a decimal is one in integers**, once both have as many decimals. -/
theorem multiple_iff_dvd :
    (∃ count : ℤ, scaled value valueDecimals = count * scaled step stepDecimals) ↔
      step.natAbs * 10 ^ extra valueDecimals stepDecimals ∣
        value.natAbs * 10 ^ extra stepDecimals valueDecimals := by
  have some_scale : (10 : ℚ) ^ (valueDecimals + extra stepDecimals valueDecimals) ≠ 0 :=
    zpow_ne_zero _ (by norm_num)
  have same : valueDecimals + (extra stepDecimals valueDecimals : ℤ) =
      stepDecimals + extra valueDecimals stepDecimals := by
    unfold extra
    omega
  have left : scaled value valueDecimals * 10 ^ (valueDecimals + extra stepDecimals valueDecimals) =
      ((value * 10 ^ extra stepDecimals valueDecimals : ℤ) : ℚ) := by
    rw [scaled, mul_assoc, ← zpow_add₀ (by norm_num), neg_add_cancel_left, zpow_natCast]
    push_cast
    ring
  have right : scaled step stepDecimals * 10 ^ (valueDecimals + extra stepDecimals valueDecimals) =
      ((step * 10 ^ extra valueDecimals stepDecimals : ℤ) : ℚ) := by
    rw [same, scaled, mul_assoc, ← zpow_add₀ (by norm_num), neg_add_cancel_left, zpow_natCast]
    push_cast
    ring
  have integers : (∃ count : ℤ, scaled value valueDecimals = count * scaled step stepDecimals) ↔
      step * 10 ^ extra valueDecimals stepDecimals ∣
        value * 10 ^ extra stepDecimals valueDecimals := by
    constructor
    · rintro ⟨count, whole⟩
      refine ⟨count, ?_⟩
      have both : scaled value valueDecimals *
          10 ^ (valueDecimals + extra stepDecimals valueDecimals) = count *
            (scaled step stepDecimals * 10 ^ (valueDecimals + extra stepDecimals valueDecimals)) := by
        rw [whole, mul_assoc]
      rw [left, right] at both
      have cast : value * 10 ^ extra stepDecimals valueDecimals =
          count * (step * 10 ^ extra valueDecimals stepDecimals) := by exact_mod_cast both
      rw [cast, mul_comm]
    · rintro ⟨count, whole⟩
      refine ⟨count, mul_right_cancel₀ some_scale ?_⟩
      rw [mul_assoc, left, right, whole]
      push_cast
      ring
  rw [integers, ← Int.natAbs_dvd_natAbs, Int.natAbs_mul, Int.natAbs_mul, Int.natAbs_pow,
    Int.natAbs_pow]
  rfl

/-- A natural number that is held. -/
theorem fit_nat {count : Nat} (held : count < 2 ^ 127) : fit 128 (count : Int) = some (count : Int) := by
  have cast : (count : Int) < 2 ^ (128 - 1) := by exact_mod_cast held
  exact fit_some (le_trans (by decide) (Int.natCast_nonneg count)) cast

theorem fit_nat_none {count : Nat} (large : ¬ count < 2 ^ 127) : fit 128 (count : Int) = none := by
  refine if_neg fun both => large ?_
  have held : (count : Int) < 2 ^ 127 := both.2
  exact_mod_cast held

/-- A remainder is taken digit by digit. -/
theorem remainderAfter_eq {divisor : Nat} (some_ : 0 < divisor) (small : divisor < 10 ^ 17) :
    ∀ (count remainder : Nat), remainder < divisor →
      remainderAfter divisor count remainder = some ((remainder * 10 ^ count % divisor : Nat) : Int)
  | 0, remainder, below => by
      rw [remainderAfter, Nat.pow_zero, Nat.mul_one, Nat.mod_eq_of_lt below]
  | count + 1, remainder, below => by
      have power : (10 : Nat) ^ 17 * 10 < 2 ^ 127 := by decide
      have held : remainder * 10 < 2 ^ 127 := by omega
      have step : fit 128 ((remainder : Int) * 10) = some ((remainder * 10 : Nat) : Int) := by
        rw [show (remainder : Int) * 10 = ((remainder * 10 : Nat) : Int) by push_cast; ring]
        exact fit_nat held
      have same : remainder * 10 % divisor * 10 ^ count % divisor =
          remainder * 10 ^ (count + 1) % divisor := by
        rw [Nat.mod_mul_mod, Nat.mul_assoc, ← Nat.pow_succ']
      rw [remainderAfter, step, Option.bind_eq_bind, Option.bind_some, ← Int.ofNat_tmod,
        remainderAfter_eq some_ small count _ (Nat.mod_lt _ some_), same]

theorem placesOver_eq (near : -700 ≤ valueDecimals ∧ valueDecimals ≤ 400)
    (near' : -700 ≤ stepDecimals ∧ stepDecimals ≤ 400) :
    placesOver valueDecimals (min valueDecimals stepDecimals) =
      some (extra valueDecimals stepDecimals) := by
  have held := @fit_some 32 (valueDecimals - min valueDecimals stepDecimals) (by omega) (by omega)
  have some_ : 0 ≤ valueDecimals - min valueDecimals stepDecimals := by omega
  rw [placesOver, held, Option.bind_eq_bind, Option.bind_some, if_pos some_]
  rfl

/-- A divisor that is not held is larger than what is divided. -/
theorem scaled_divisor {divisor count numerator : Nat} (some_ : 0 < numerator)
    (small : numerator < 10 ^ 17) (positive : 0 < divisor) :
    (match (fit 128 (10 ^ count)).bind fun scale => fit 128 ((divisor : Int) * scale) with
      | some scaled => some (decide ((numerator : Int).tmod scaled = 0))
      | none => some false) = some (decide (divisor * 10 ^ count ∣ numerator)) := by
  have power : (10 : Nat) ^ 17 < 2 ^ 127 := by decide
  have ten : (10 : Int) ^ count = ((10 ^ count : Nat) : Int) := by
    push_cast
    rfl
  have unheld : ¬ divisor * 10 ^ count < 2 ^ 127 → ¬ divisor * 10 ^ count ∣ numerator := by
    intro large divides
    have least := Nat.le_of_dvd some_ divides
    omega
  rw [ten]
  by_cases scale : 10 ^ count < 2 ^ 127
  · rw [fit_nat scale, Option.bind_some, ← Int.natCast_mul]
    by_cases held : divisor * 10 ^ count < 2 ^ 127
    · rw [fit_nat held]
      simp only [← Int.ofNat_tmod]
      congr 1
      rw [decide_eq_decide, Nat.dvd_iff_mod_eq_zero]
      exact_mod_cast Iff.rfl
    · rw [fit_nat_none held]
      simp only [unheld held, decide_false]
  · have large : ¬ divisor * 10 ^ count < 2 ^ 127 := by
      intro held
      have more := Nat.le_mul_of_pos_left (10 ^ count) positive
      omega
    rw [fit_nat_none scale, Option.bind_none]
    simp only [unheld large, decide_false]

/-- **Whether a decimal is a multiple of another is decided** in every size of them. -/
theorem multipleOfParts_eq (small : value.natAbs < 10 ^ 17) (small' : step.natAbs < 10 ^ 17)
    (near : -700 ≤ valueDecimals ∧ valueDecimals ≤ 400)
    (near' : -700 ≤ stepDecimals ∧ stepDecimals ≤ 400) (some_value : value ≠ 0) (some_step : step ≠ 0) :
    ∃ answer, multipleOfParts value valueDecimals step stepDecimals = some answer ∧
      (answer = true ↔
        ∃ count : ℤ, scaled value valueDecimals = count * scaled step stepDecimals) := by
  have power : (10 : Nat) ^ 17 < 2 ^ 127 := by decide
  have numerator : 0 < value.natAbs := Int.natAbs_pos.mpr some_value
  have divisor : 0 < step.natAbs := Int.natAbs_pos.mpr some_step
  have apart : (step.natAbs : Int) ≠ 0 := by omega
  have shared := placesOver_eq near' near
  rw [min_comm] at shared
  rw [multiple_iff_dvd]
  unfold multipleOfParts
  simp only [Option.bind_eq_bind, Option.bind_some, fit_nat (lt_trans small power),
    fit_nat (lt_trans small' power), apart, ↓reduceIte, shared, placesOver_eq near near']
  by_cases level : extra valueDecimals stepDecimals = 0
  · rw [if_pos level, level, Nat.pow_zero, Nat.mul_one, ← Int.ofNat_tmod,
      remainderAfter_eq divisor small' _ _ (Nat.mod_lt _ divisor), Option.bind_some]
    refine ⟨_, rfl, ?_⟩
    rw [decide_eq_true_eq, Nat.dvd_iff_mod_eq_zero, Nat.mod_mul_mod]
    exact_mod_cast Iff.rfl
  · have whole : extra stepDecimals valueDecimals = 0 := by
      unfold extra at level ⊢
      omega
    rw [if_neg level, scaled_divisor numerator small divisor, whole, Nat.pow_zero, Nat.mul_one]
    exact ⟨_, rfl, decide_eq_true_iff⟩

/-- A step of nothing is not divided by. -/
theorem multipleOfParts_zero (small : value.natAbs < 10 ^ 17) :
    multipleOfParts value valueDecimals 0 stepDecimals = none := by
  have power : (10 : Nat) ^ 17 < 2 ^ 127 := by decide
  have gone : fit 128 ((0 : Nat) : Int) = some 0 := by decide
  unfold multipleOfParts
  rw [fit_nat (lt_trans small power), Int.natAbs_zero, gone]
  rfl

end Parts

/-- What a double prints as. -/
def decimal (value : Binary64) : ℚ := scaled (mantissa value) (decimals value)

/-- One decimal is a whole multiple of another. -/
def Multiple (value step : Binary64) : Prop := ∃ count : ℤ, decimal value = count * decimal step

theorem mantissa_eq_zero {value : Binary64} : mantissa value = 0 ↔ value.units = 0 := by
  rw [← (mantissa_bounds value).2, Int.natAbs_eq_zero]

theorem decimal_eq_zero {value : Binary64} : decimal value = 0 ↔ value.units = 0 := by
  rw [← mantissa_eq_zero, decimal, scaled]
  constructor
  · intro zero
    rcases mul_eq_zero.mp zero with none_ | power
    · exact_mod_cast none_
    · exact (zpow_ne_zero _ (by norm_num) power).elim
  · intro none_
    rw [none_, Int.cast_zero, zero_mul]

theorem isExactMultiple_parts {value : Binary64} (some_ : value.units ≠ 0) (step : Binary64) :
    isExactMultiple value step =
      multipleOfParts (mantissa value) (decimals value) (mantissa step) (decimals step) := by
  unfold isExactMultiple
  rw [if_neg some_, decimalParts_eq value, Option.bind_some, decimalParts_eq step, Option.bind_some]

/-- The decimal has the double's sign, and is rounded to the double. -/
structure ReadsBack (value : Binary64) : Prop where
  sign : mantissa value < 0 ↔ value.negative = true ∧ value.units ≠ 0
  rounds : Binary64.nearest
    ((mantissa value).natAbs * 10 ^ (Binary64.places - decimals value).toNat * Binary64.one)
    (10 ^ Binary64.places) = value.units

theorem natAbs_mantissa {value : Binary64} (some_ : value.units ≠ 0) :
    (mantissa value).natAbs = (Binary64.shortest value.units).1 := by
  unfold mantissa
  rw [if_neg some_]
  split
  · rw [Int.natAbs_neg, Int.natAbs_natCast]
  · exact Int.natAbs_natCast _

theorem place_decimals {value : Binary64} (some_ : value.units ≠ 0) :
    (Binary64.places - decimals value).toNat = (Binary64.shortest value.units).2 := by
  unfold decimals
  rw [if_neg some_, Int.sub_sub_self, Int.toNat_natCast]

theorem mantissa_neg {value : Binary64} :
    mantissa value < 0 ↔ value.negative = true ∧ value.units ≠ 0 := by
  have zero := (mantissa_bounds value).2
  unfold mantissa at zero ⊢
  split
  next none_ => simp [none_]
  next some_ =>
    rw [if_neg some_] at zero
    split
    next negative =>
      rw [if_pos negative] at zero
      exact iff_of_true (by omega) ⟨negative, some_⟩
    next plain => exact iff_of_false (by omega) fun both => plain both.1

/-- **The decimal of a double is read back.** -/
theorem reads_back (value : Binary64) : ReadsBack value := by
  refine ⟨mantissa_neg, ?_⟩
  by_cases none_ : value.units = 0
  · rw [mantissa_eq_zero.mpr none_, Int.natAbs_zero, Nat.zero_mul, Nat.zero_mul, none_]
    exact Binary64.nearest_zero (Nat.pow_pos (by decide))
  · rw [natAbs_mantissa none_, place_decimals none_]
    exact Binary64.shortest_reads value.representable (Nat.pos_of_ne_zero none_)

/-- **Every two doubles have decimals, which are rounded to them, and the answer is that one
is a multiple of the other exactly when it is**; there is none only for a step of nothing. -/
theorem multiple_of_decimals (value step : Binary64) :
    (decimalParts value = some (mantissa value, decimals value) ∧ ReadsBack value ∧
      decimalParts step = some (mantissa step, decimals step) ∧ ReadsBack step) ∧
    (isExactMultiple value step = some true ↔ Multiple value step) ∧
      (isExactMultiple value step = none ↔ step.units = 0 ∧ value.units ≠ 0) := by
  refine ⟨⟨decimalParts_eq value, reads_back value, decimalParts_eq step, reads_back step⟩, ?_⟩
  by_cases zero : value.units = 0
  · have told : isExactMultiple value step = some true := if_pos zero
    rw [told]
    refine ⟨iff_of_true rfl ⟨0, ?_⟩, iff_of_false (nofun) fun both => both.2 zero⟩
    rw [decimal_eq_zero.mpr zero, Int.cast_zero, zero_mul]
  · rw [isExactMultiple_parts zero]
    by_cases none_ : step.units = 0
    · rw [mantissa_eq_zero.mpr none_, multipleOfParts_zero (mantissa_bounds value).1]
      refine ⟨iff_of_false (nofun) ?_, iff_of_true rfl ⟨none_, zero⟩⟩
      rintro ⟨count, whole⟩
      rw [decimal_eq_zero.mpr none_, mul_zero] at whole
      exact zero (decimal_eq_zero.mp whole)
    · obtain ⟨answer, told, exactly⟩ := multipleOfParts_eq (mantissa_bounds value).1
        (mantissa_bounds step).1 (decimals_bounds value) (decimals_bounds step)
        (fun is => zero (mantissa_eq_zero.mp is)) (fun is => none_ (mantissa_eq_zero.mp is))
      rw [told, Option.some.injEq]
      exact ⟨exactly, iff_of_false (nofun) fun both => none_ both.1⟩

end Renvor.Validation
