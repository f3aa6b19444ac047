import Mathlib.Tactic.Common

/-! # Days of the civil calendar

Days from the epoch are told as a year, a month and a day of it. No two days are
told alike (`Foundation.Calendar.civil_injective`).
-/

namespace Foundation.Calendar

/-- A day of the civil calendar. -/
@[ext]
structure Civil where
  year : Nat
  month : Nat
  day : Nat
  deriving DecidableEq

/-- The years of an era before a day of it. -/
def yearOfEra (dayOfEra : Nat) : Nat :=
  (dayOfEra - dayOfEra / 1460 + dayOfEra / 36524 - dayOfEra / 146096) / 365

/-- The days of an era before a year of it. -/
def daysBefore (yearOfEra : Nat) : Nat := 365 * yearOfEra + yearOfEra / 4 - yearOfEra / 100

/-- The month of a year that begins in March. -/
def monthIndex (dayOfYear : Nat) : Nat := (5 * dayOfYear + 2) / 153

/-- The day that many days after the first of January 1970. -/
def civil (days : Nat) : Civil :=
  let shifted := days + 719468
  let era := shifted / 146097
  let dayOfEra := shifted - era * 146097
  let dayOfYear := dayOfEra - daysBefore (yearOfEra dayOfEra)
  let index := monthIndex dayOfYear
  let month := if index < 10 then index + 3 else index - 9
  let year := yearOfEra dayOfEra + era * 400
  { year := if month ≤ 2 then year + 1 else year
    month := month
    day := dayOfYear - (153 * index + 2) / 5 + 1 }

theorem yearOfEra_lt {day : Nat} (within : day < 146097) : yearOfEra day < 400 := by
  unfold yearOfEra
  omega

/-- A leap year is counted for every four years begun. -/
theorem yearOfEra_fours {day : Nat} (within : day < 146097) :
    yearOfEra day / 4 ≤ day / 1460 ∧ day / 1460 ≤ yearOfEra day / 4 + 1 := by
  unfold yearOfEra
  generalize counted : (day - day / 1460 + day / 36524 - day / 146096) / 365 = years
  omega

/-- None is counted for a hundred years. -/
theorem yearOfEra_hundreds {day : Nat} (within : day < 146097) :
    day / 36524 = yearOfEra day / 100 + day / 146096 := by
  have few := yearOfEra_lt within
  by_cases last : day = 146096
  · subst last
    decide
  · have cycle : day / 146096 = 0 := by omega
    unfold yearOfEra
    rw [cycle]
    generalize counted : (day - day / 1460 + day / 36524 - 0) / 365 = years
    omega

/-- **A day of an era is a day of its year.** -/
theorem daysBefore_le {day : Nat} (within : day < 146097) :
    daysBefore (yearOfEra day) ≤ day ∧ day ≤ daysBefore (yearOfEra day) + 365 := by
  have fours := yearOfEra_fours within
  have hundreds := yearOfEra_hundreds within
  have leaps : day / 36524 ≤ day / 1460 ∧ day / 146096 ≤ day / 36524 := by omega
  have counted : 365 * yearOfEra day ≤ day - day / 1460 + day / 36524 - day / 146096 ∧
      day - day / 1460 + day / 36524 - day / 146096 < 365 * yearOfEra day + 365 := by
    unfold yearOfEra
    omega
  have below : day / 1460 ≤ day := Nat.div_le_self day 1460
  unfold daysBefore
  generalize yearOfEra day = years at *
  generalize day / 1460 = four at *
  generalize day / 36524 = hundred at *
  generalize day / 146096 = last at *
  generalize years / 4 = quarter at *
  generalize years / 100 = century at *
  omega

/-- A month of the civil calendar is one of twelve. -/
theorem monthIndex_le {day : Nat} (within : day ≤ 365) : monthIndex day ≤ 11 := by
  unfold monthIndex
  omega

theorem month_start_le (day : Nat) :
    (153 * monthIndex day + 2) / 5 ≤ day ∧ day ≤ (153 * monthIndex day + 2) / 5 + 30 := by
  unfold monthIndex
  omega

/-- The parts that a day is told from. -/
theorem civil_parts (days : Nat) : ∃ era dayOfEra dayOfYear,
    dayOfEra < 146097 ∧ days + 719468 = era * 146097 + dayOfEra ∧ dayOfYear ≤ 365 ∧
    dayOfEra = daysBefore (yearOfEra dayOfEra) + dayOfYear ∧
    (civil days).year = yearOfEra dayOfEra + era * 400 +
      (if monthIndex dayOfYear < 10 then 0 else 1) ∧
    (civil days).month =
      (if monthIndex dayOfYear < 10 then monthIndex dayOfYear + 3 else monthIndex dayOfYear - 9) ∧
    (civil days).day = dayOfYear - (153 * monthIndex dayOfYear + 2) / 5 + 1 := by
  have within : days + 719468 - (days + 719468) / 146097 * 146097 < 146097 := by omega
  obtain ⟨from_, upto⟩ := daysBefore_le within
  refine ⟨(days + 719468) / 146097, _, _, within, by omega, Nat.sub_le_iff_le_add'.mpr upto,
    (Nat.add_sub_cancel' from_).symm, ?_, rfl, rfl⟩
  unfold civil
  have few := monthIndex_le (Nat.sub_le_iff_le_add'.mpr upto)
  dsimp only
  split <;> split <;> omega

theorem civil_bounds (days : Nat) : (civil days).month ≤ 12 ∧ (civil days).day ≤ 31 := by
  obtain ⟨era, dayOfEra, dayOfYear, _, _, short, _, _, month, day⟩ := civil_parts days
  have few := monthIndex_le short
  have start := month_start_le dayOfYear
  rw [month, day]
  constructor
  · split <;> omega
  · omega

/-- **No two days are told alike.** -/
theorem civil_injective : Function.Injective civil := by
  intro days others same
  obtain ⟨era, dayOfEra, dayOfYear, within, counted, short, split, year, month, day⟩ :=
    civil_parts days
  obtain ⟨era', dayOfEra', dayOfYear', within', counted', short', split', year', month', day'⟩ :=
    civil_parts others
  rw [← same] at year' month' day'
  have few := monthIndex_le short
  have few' := monthIndex_le short'
  have index : monthIndex dayOfYear = monthIndex dayOfYear' := by
    rw [month] at month'
    split at month' <;> split at month' <;> omega
  have ofYear : dayOfYear = dayOfYear' := by
    have start := (month_start_le dayOfYear).1
    have start' := (month_start_le dayOfYear').1
    rw [day, ← index] at day'
    rw [← index] at start'
    omega
  have years : yearOfEra dayOfEra + era * 400 = yearOfEra dayOfEra' + era' * 400 := by
    rw [year, ← index] at year'
    exact Nat.add_right_cancel year'
  have ofEra : yearOfEra dayOfEra = yearOfEra dayOfEra' ∧ era = era' := by
    have lt := yearOfEra_lt within
    have lt' := yearOfEra_lt within'
    omega
  rw [ofEra.1, ofYear, ← split'] at split
  rw [ofEra.2, split, ← counted'] at counted
  exact Nat.add_right_cancel counted

end Foundation.Calendar
