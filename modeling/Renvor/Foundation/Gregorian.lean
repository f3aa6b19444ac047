import Mathlib.Logic.Function.Iterate
import Mathlib.Order.Monotone.Basic
import Mathlib.Tactic.IntervalCases
import Renvor.Foundation.Calendar

/-! # The Gregorian calendar, counted

Days and seconds are counted one after the other, months by their lengths. The day that is
told by arithmetic is the day that is counted to (`Foundation.Calendar.civil_counted`).
-/

namespace Foundation.Calendar

/-- A leap year: every fourth, but of the hundreds only every fourth. -/
def leap (year : Nat) : Bool := year % 4 = 0 && (year % 100 ≠ 0 || year % 400 = 0)

def daysIn (year month : Nat) : Nat :=
  if month = 2 then if leap year then 29 else 28
  else if month = 4 ∨ month = 6 ∨ month = 9 ∨ month = 11 then 30
  else 31

/-- The day after. -/
def Civil.next (date : Civil) : Civil :=
  if date.day < daysIn date.year date.month then { date with day := date.day + 1 }
  else if date.month < 12 then { date with month := date.month + 1, day := 1 }
  else ⟨date.year + 1, 1, 1⟩

/-- A date and a time of it. -/
@[ext]
structure Instant where
  date : Civil
  hour : Nat
  minute : Nat
  second : Nat
  deriving DecidableEq

/-- The second after. -/
def Instant.tick (instant : Instant) : Instant :=
  if instant.second < 59 then { instant with second := instant.second + 1 }
  else if instant.minute < 59 then { instant with minute := instant.minute + 1, second := 0 }
  else if instant.hour < 23 then { instant with hour := instant.hour + 1, minute := 0, second := 0 }
  else ⟨instant.date.next, 0, 0, 0⟩

/-- The first second of January 1970. -/
def Instant.epoch : Instant := ⟨⟨1970, 1, 1⟩, 0, 0, 0⟩

/-- The instant that many seconds after, counted. -/
def Instant.after (seconds : Nat) : Instant := Instant.tick^[seconds] Instant.epoch

/-! ## Years that begin in March -/

/-- The days of a year of an era that begins in March. -/
def yearLength (year : Nat) : Nat := if leap (year + 1) then 366 else 365

theorem yearOfEra_succ (day : Nat) : yearOfEra day ≤ yearOfEra (day + 1) := by
  unfold yearOfEra
  omega

theorem yearOfEra_mono : Monotone yearOfEra := monotone_nat_of_le_succ yearOfEra_succ

/-- Where each year of an era begins and ends. -/
theorem year_ends : ∀ year < 400, yearOfEra (daysBefore year) = year ∧
    yearOfEra (daysBefore year + yearLength year - 1) = year ∧
    (year < 399 → daysBefore (year + 1) = daysBefore year + yearLength year) ∧
    daysBefore year + yearLength year ≤ 146097 ∧
    (¬year < 399 → daysBefore year + yearLength year = 146097) := by
  decide +kernel

/-- A day of a year of an era is told as one. -/
theorem yearOfEra_within {year day : Nat} (early : year < 400) (short : day < yearLength year) :
    yearOfEra (daysBefore year + day) = year := by
  obtain ⟨first, last, -⟩ := year_ends year early
  refine Nat.le_antisymm ?_ ?_
  · exact (yearOfEra_mono (Nat.le_sub_one_of_lt (Nat.add_lt_add_left short _))).trans last.le
  · exact first.ge.trans (yearOfEra_mono (Nat.le_add_right _ _))

/-- The month of an index, the first being March. -/
def monthOf (index : Nat) : Nat := if index < 10 then index + 3 else index - 9

/-- The days of a year that begins in March before a month. -/
def monthStart (index : Nat) : Nat := (153 * index + 2) / 5

/-- The day of a year of an era that begins in March. -/
def told (era year day : Nat) : Civil where
  year := if monthOf (monthIndex day) ≤ 2 then year + era * 400 + 1 else year + era * 400
  month := monthOf (monthIndex day)
  day := day - monthStart (monthIndex day) + 1

/-- A day that an era, a year and a day of it make up is told from them. -/
theorem civil_told {days era year day : Nat} (early : year < 400) (short : day < yearLength year)
    (made : days + 719468 = era * 146097 + (daysBefore year + day)) :
    civil days = told era year day := by
  have within : daysBefore year + day < 146097 :=
    (Nat.add_lt_add_left short _).trans_le (year_ends year early).2.2.2.1
  have era_eq : (era * 146097 + (daysBefore year + day)) / 146097 = era := by omega
  have rest : era * 146097 + (daysBefore year + day) - era * 146097 = daysBefore year + day :=
    Nat.add_sub_cancel_left _ _
  have ofYear : daysBefore year + day - daysBefore year = day := Nat.add_sub_cancel_left _ _
  simp only [civil, made, era_eq, rest, yearOfEra_within early short, ofYear, told,
    monthOf, monthStart]
  rfl

/-- Every day is made up of them. -/
theorem exists_told (days : Nat) : ∃ era year day, year < 400 ∧ day < yearLength year ∧
    days + 719468 = era * 146097 + (daysBefore year + day) := by
  have within : (days + 719468) % 146097 < 146097 := Nat.mod_lt _ (by decide)
  have early := yearOfEra_lt within
  have begun := (daysBefore_le within).1
  obtain ⟨-, -, next, -, last⟩ := year_ends _ early
  generalize counted : (days + 719468) % 146097 = ofEra at *
  refine ⟨(days + 719468) / 146097, yearOfEra ofEra, ofEra - daysBefore (yearOfEra ofEra), early,
    ?_, by omega⟩
  by_contra long
  -- the day would be of the next year
  by_cases inner : yearOfEra ofEra < 399
  · have later : daysBefore (yearOfEra ofEra + 1) ≤ ofEra := by
      rw [next inner]
      omega
    have following := (year_ends (yearOfEra ofEra + 1) (Nat.succ_lt_succ inner)).1
    have reached := yearOfEra_mono later
    omega
  · have whole := last inner
    omega

/-! ## The day after -/

theorem leap_era (era year : Nat) : leap (year + era * 400) = leap year := by
  have four : (year + era * 400) % 4 = year % 4 := by omega
  have hundred : (year + era * 400) % 100 = year % 100 := by omega
  rw [leap, leap, four, hundred, Nat.add_mul_mod_self_right]

theorem yearLength_le (year : Nat) : yearLength year ≤ 366 := by
  unfold yearLength
  split <;> decide

theorem daysIn_month (year : Nat) {index : Nat} (early : index < 11) :
    daysIn year (monthOf index) = monthStart (index + 1) - monthStart index := by
  interval_cases index <;> rfl

theorem monthIndex_succ (day : Nat) :
    (monthIndex (day + 1) = monthIndex day ∧ day + 1 < monthStart (monthIndex day + 1)) ∨
      (monthIndex (day + 1) = monthIndex day + 1 ∧
        day + 1 = monthStart (monthIndex day + 1)) := by
  unfold monthIndex monthStart
  omega

theorem monthStart_le (day : Nat) : monthStart (monthIndex day) ≤ day :=
  (month_start_le day).1

theorem monthOf_succ {index : Nat} (early : index < 11) :
    (monthOf index < 12 ∧ monthOf (index + 1) = monthOf index + 1 ∧
      (monthOf (index + 1) ≤ 2 ↔ monthOf index ≤ 2)) ∨
      (monthOf index = 12 ∧ monthOf (index + 1) = 1) := by
  interval_cases index <;> decide

/-- The last month of a year that begins in March is February. -/
theorem told_february (era year : Nat) {day : Nat} (last : monthIndex day = 11) :
    told era year day = ⟨year + 1 + era * 400, 2, day - 337 + 1⟩ ∧
      daysIn (year + 1 + era * 400) 2 + 337 = yearLength year := by
  constructor
  · rw [told, last]
    show (⟨year + era * 400 + 1, 2, day - 337 + 1⟩ : Civil) = _
    rw [Nat.add_right_comm]
  · unfold daysIn yearLength
    rw [leap_era, if_pos rfl]
    split <;> rfl

/-- Within a year, the day after is told as the next. -/
theorem told_succ {era year day : Nat} (short : day + 1 < yearLength year) :
    told era year (day + 1) = (told era year day).next := by
  have length := yearLength_le year
  have few : monthIndex day ≤ 11 := monthIndex_le (by omega)
  have begun := monthStart_le day
  rcases monthIndex_succ day with ⟨same, inside⟩ | ⟨other, last⟩
  · -- the month goes on
    have goes : (told era year day).day <
        daysIn (told era year day).year (told era year day).month := by
      by_cases early : monthIndex day < 11
      · show day - monthStart (monthIndex day) + 1 < daysIn _ (monthOf (monthIndex day))
        rw [daysIn_month _ early]
        omega
      · have final : monthIndex day = 11 := Nat.le_antisymm few (Nat.le_of_not_lt early)
        obtain ⟨date, days⟩ := told_february era year final
        have whole : 337 ≤ day := by
          rw [final] at begun
          exact begun
        rw [date]
        show day - 337 + 1 < daysIn (year + 1 + era * 400) 2
        omega
    rw [Civil.next, if_pos goes, told, same, told]
    ext
    · rfl
    · rfl
    · show day + 1 - monthStart (monthIndex day) + 1 = day - monthStart (monthIndex day) + 1 + 1
      omega
  · -- a month ends, and it is not the last
    have early : monthIndex day < 11 := by
      have few' := monthIndex_le (show day + 1 ≤ 365 by omega)
      omega
    have ends : ¬(told era year day).day <
        daysIn (told era year day).year (told era year day).month := by
      show ¬day - monthStart (monthIndex day) + 1 < daysIn _ (monthOf (monthIndex day))
      rw [daysIn_month _ early]
      omega
    have first : day + 1 - monthStart (monthIndex (day + 1)) + 1 = 1 := by
      rw [other, ← last, Nat.sub_self]
    rcases monthOf_succ early with ⟨inner, next, half⟩ | ⟨december, january⟩
    · rw [Civil.next, if_neg ends, if_pos (show (told era year day).month < 12 from inner)]
      ext
      · show (if monthOf (monthIndex (day + 1)) ≤ 2 then _ else _) = _
        rw [other, if_congr half rfl rfl]
        rfl
      · show monthOf (monthIndex (day + 1)) = _
        rw [other, next]
        rfl
      · exact first
    · have last : ¬(told era year day).month < 12 := by
        show ¬monthOf (monthIndex day) < 12
        omega
      rw [Civil.next, if_neg ends, if_neg last]
      ext
      · show (if monthOf (monthIndex (day + 1)) ≤ 2 then _ else _) =
          (if monthOf (monthIndex day) ≤ 2 then _ else _) + 1
        rw [other, january, december]
        rfl
      · show monthOf (monthIndex (day + 1)) = 1
        rw [other, january]
      · exact first

/-- After the last day of a year that begins in March, the next begins. -/
theorem told_last {era year day : Nat} (last : day + 1 = yearLength year) :
    (told era year day).next = told era (year + 1) 0 := by
  have index : monthIndex day = 11 := by
    unfold yearLength at last
    unfold monthIndex
    split at last <;> omega
  obtain ⟨date, days⟩ := told_february era year index
  have ends : ¬day - 337 + 1 < daysIn (year + 1 + era * 400) 2 := by omega
  rw [date, Civil.next, if_neg ends, if_pos (show 2 < 12 by decide)]
  rfl

/-- **The day after is told as the next.** -/
theorem civil_succ (days : Nat) : civil (days + 1) = (civil days).next := by
  obtain ⟨era, year, day, early, short, made⟩ := exists_told days
  rw [civil_told early short made]
  by_cases inner : day + 1 < yearLength year
  · rw [← told_succ inner]
    exact civil_told early inner (by omega)
  · have last : day + 1 = yearLength year := by omega
    have some : ∀ year, 0 < yearLength year := fun year => by
      unfold yearLength
      split <;> decide
    obtain ⟨-, -, next, -, whole⟩ := year_ends year early
    rw [told_last last]
    by_cases within : year < 399
    · have following := next within
      exact civil_told (Nat.succ_lt_succ within) (some _) (by omega)
    · -- an era ends, and the next begins with its first year
      have final := whole within
      have wrapped : civil (days + 1) = told (era + 1) 0 0 :=
        civil_told (by decide) (some 0) (by
          show days + 1 + 719468 = (era + 1) * 146097 + 0
          omega)
      have same : told era (year + 1) 0 = told (era + 1) 0 0 := by
        show (⟨year + 1 + era * 400, 3, 1⟩ : Civil) = ⟨0 + (era + 1) * 400, 3, 1⟩
        congr 1
        omega
      rw [wrapped, same]

/-- **The day that is told is the day that is counted to.** -/
theorem civil_counted (days : Nat) : civil days = Civil.next^[days] ⟨1970, 1, 1⟩ := by
  induction days with
  | zero => decide
  | succ days ih => rw [civil_succ, ih, Function.iterate_succ_apply']

/-! ## Seconds -/

/-- The instant, told by arithmetic. -/
def instant (seconds : Nat) : Instant :=
  ⟨civil (seconds / 86400), seconds % 86400 / 3600, seconds % 86400 % 3600 / 60,
    seconds % 86400 % 60⟩

theorem instant_succ (seconds : Nat) : instant (seconds + 1) = (instant seconds).tick := by
  unfold Instant.tick instant
  dsimp only
  split
  next low =>
    have same : (seconds + 1) / 86400 = seconds / 86400 := by omega
    rw [same]
    ext <;> dsimp only <;> omega
  next =>
    split
    next low =>
      have same : (seconds + 1) / 86400 = seconds / 86400 := by omega
      rw [same]
      ext <;> dsimp only <;> omega
    next =>
      split
      next low =>
        have same : (seconds + 1) / 86400 = seconds / 86400 := by omega
        rw [same]
        ext <;> dsimp only <;> omega
      next high =>
        have next : (seconds + 1) / 86400 = seconds / 86400 + 1 := by omega
        rw [next, civil_succ]
        ext <;> dsimp only <;> omega

/-- **The instant that is told is the one that is counted to.** -/
theorem instant_after (seconds : Nat) : instant seconds = Instant.after seconds := by
  induction seconds with
  | zero => decide
  | succ seconds ih =>
      rw [instant_succ, ih, Instant.after, Instant.after, Function.iterate_succ_apply']

end Foundation.Calendar
