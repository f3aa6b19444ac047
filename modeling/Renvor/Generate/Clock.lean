import Renvor.Foundation.Gregorian
import Renvor.Generate.Migration

/-! # Versions and timestamps, as they are computed

The migration version and the timestamp of a line of the log are computed in 64 bits,
each with its own copy of the day's arithmetic. No step of either overflows
(`Renvor.Clock.utcVersion_told`, `Renvor.Clock.rfc3339_told`).
-/

namespace Renvor.Clock

open Foundation

/-- A signed number of 64 bits, or nothing where it overflows. -/
def signed (value : Int) : Option Int :=
  if -2 ^ 63 ≤ value ∧ value < 2 ^ 63 then some value else none

/-- An unsigned number of 64 bits, or nothing where it overflows. -/
def unsigned (value : Nat) : Option Nat := if value < 2 ^ 64 then some value else none

/-- The days of some seconds, as a signed number, or the greatest. -/
def daysOf (seconds : Nat) : Int :=
  if seconds / 86400 < 2 ^ 63 then (seconds / 86400 : Nat) else 2 ^ 63 - 1

/-- The year, month and day of a day of an era. -/
def civilOf (era dayOfEra : Int) : Option (Int × Int × Int) := do
  let fewer ← signed (dayOfEra - dayOfEra.tdiv 1460)
  let more ← signed (fewer + dayOfEra.tdiv 36524)
  let counted ← signed (more - dayOfEra.tdiv 146096)
  let yearOfEra := counted.tdiv 365
  let eras ← signed (era * 400)
  let year ← signed (yearOfEra + eras)
  let whole ← signed (365 * yearOfEra)
  let leaps ← signed (whole + yearOfEra.tdiv 4)
  let before ← signed (leaps - yearOfEra.tdiv 100)
  let dayOfYear ← signed (dayOfEra - before)
  let fives ← signed (5 * dayOfYear)
  let shifted ← signed (fives + 2)
  let monthIndex := shifted.tdiv 153
  let months ← signed (153 * monthIndex)
  let started ← signed (months + 2)
  let passed ← signed (dayOfYear - started.tdiv 5)
  let day ← signed (passed + 1)
  let month ← (if monthIndex < 10 then signed (monthIndex + 3) else signed (monthIndex - 9))
  let year ← (if month ≤ 2 then signed (year + 1) else some year)
  return (year, month, day)

/-- A number with zeros before it, up to a width. -/
def zeroed (width : Nat) : Int → List Char
  | .ofNat number => Digits.padded width number
  | .negSucc number => '-' :: Digits.padded (width - 1) (number + 1)

/-- The second, as a migration version. -/
def utcVersion (seconds : Nat) : Option String := do
  let z ← signed (daysOf seconds + 719468)
  let base ← (if 0 ≤ z then some z else signed (z - 146096))
  let era := base.tdiv 146097
  let eras ← signed (era * 146097)
  let dayOfEra ← signed (z - eras)
  let (year, month, day) ← civilOf era dayOfEra
  let remainder := seconds % 86400
  return String.ofList (zeroed 4 year ++ zeroed 2 month ++ zeroed 2 day ++
    Digits.padded 2 (remainder / 3600) ++ Digits.padded 2 (remainder % 3600 / 60) ++
    Digits.padded 2 (remainder % 60))

/-- The second and its thousandths, as a timestamp. -/
def rfc3339 (unixSeconds millis : Nat) : Option String := do
  let secondsOfDay := unixSeconds % 86400
  let z ← signed (daysOf unixSeconds + 719468)
  let (year, month, day) ← civilOf (z / 146097) (z % 146097)
  return String.ofList (zeroed 4 year ++ '-' :: zeroed 2 month ++ '-' :: zeroed 2 day ++
    'T' :: Digits.padded 2 (secondsOfDay / 3600) ++
    ':' :: Digits.padded 2 (secondsOfDay % 3600 / 60) ++
    ':' :: Digits.padded 2 (secondsOfDay % 60) ++ '.' :: Digits.padded 3 millis ++ ['Z'])

/-- The first second from one on whose version is not taken, looking at some seconds. -/
def allocateVersion (taken : List String) : Nat → Nat → Option String
  | 0, _ => none
  | looks + 1, candidate => do
      let version ← utcVersion candidate
      if version ∈ taken then
        let later ← unsigned (candidate + 1)
        allocateVersion taken looks later
      else return version

/-! ## No step overflows -/

section Steps

variable {α : Type} {value : Int} {rest : Int → Option α}

theorem bind_signed (whole : Nat) (exactly : value = whole) (fits : whole < 2 ^ 63) :
    ((signed value).bind rest) = rest whole := by
  subst exactly
  rw [signed, if_pos (by omega), Option.bind_some]

theorem tdiv_nat (number divisor : Nat) :
    (number : Int).tdiv divisor = (number / divisor : Nat) :=
  (Int.ofNat_tdiv number divisor).symm

end Steps

/-- A date, as it is computed. -/
def parts (date : Calendar.Civil) : Int × Int × Int := (date.year, date.month, date.day)

/-- A day that is told by arithmetic is computed so. -/
theorem civilOf_nat {era dayOfEra : Nat} (few : era < 2 ^ 50) (within : dayOfEra < 146097) :
    civilOf era dayOfEra = some (parts (Calendar.told era (Calendar.yearOfEra dayOfEra)
      (dayOfEra - Calendar.daysBefore (Calendar.yearOfEra dayOfEra)))) := by
  obtain ⟨begun, upto⟩ := Calendar.daysBefore_le within
  have early := Calendar.yearOfEra_lt within
  have below : dayOfEra / 1460 ≤ dayOfEra ∧
      dayOfEra / 146096 ≤ dayOfEra - dayOfEra / 1460 + dayOfEra / 36524 := by omega
  have counted : (dayOfEra - dayOfEra / 1460 + dayOfEra / 36524 - dayOfEra / 146096) / 365 =
      Calendar.yearOfEra dayOfEra := rfl
  have before : 365 * Calendar.yearOfEra dayOfEra + Calendar.yearOfEra dayOfEra / 4 -
      Calendar.yearOfEra dayOfEra / 100 = Calendar.daysBefore (Calendar.yearOfEra dayOfEra) := rfl
  generalize Calendar.yearOfEra dayOfEra = year at *
  generalize Calendar.daysBefore year = passed at *
  generalize ofYear : dayOfEra - passed = day at *
  have index : (5 * day + 2) / 153 = Calendar.monthIndex day := rfl
  have start : (153 * Calendar.monthIndex day + 2) / 5 =
      Calendar.monthStart (Calendar.monthIndex day) := rfl
  have months : Calendar.monthIndex day ≤ 11 := Calendar.monthIndex_le (by omega)
  have inside := Calendar.monthStart_le day
  unfold civilOf
  refine (bind_signed (dayOfEra - dayOfEra / 1460) ?_ ?_).trans ?_
  · rw [show (1460 : Int) = (1460 : Nat) from rfl, tdiv_nat]
    omega
  · omega
  refine (bind_signed (dayOfEra - dayOfEra / 1460 + dayOfEra / 36524) ?_ ?_).trans ?_
  · rw [show (36524 : Int) = (36524 : Nat) from rfl, tdiv_nat]
    rfl
  · omega
  refine (bind_signed (dayOfEra - dayOfEra / 1460 + dayOfEra / 36524 - dayOfEra / 146096)
    ?_ ?_).trans ?_
  · rw [show (146096 : Int) = (146096 : Nat) from rfl, tdiv_nat]
    omega
  · omega
  rw [show (365 : Int) = (365 : Nat) from rfl, tdiv_nat, counted]
  refine (bind_signed (era * 400) (by push_cast; rfl) (by omega)).trans ?_
  refine (bind_signed (year + era * 400) (by push_cast; rfl) (by omega)).trans ?_
  refine (bind_signed (365 * year) (by push_cast; rfl) (by omega)).trans ?_
  rw [show (4 : Int) = (4 : Nat) from rfl, tdiv_nat, show (100 : Int) = (100 : Nat) from rfl,
    tdiv_nat]
  refine (bind_signed (365 * year + year / 4) (by push_cast; rfl) (by omega)).trans ?_
  refine (bind_signed passed (by omega) (by omega)).trans ?_
  refine (bind_signed day (by omega) (by omega)).trans ?_
  refine (bind_signed (5 * day) (by push_cast; rfl) (by omega)).trans ?_
  refine (bind_signed (5 * day + 2) (by push_cast; rfl) (by omega)).trans ?_
  rw [show (153 : Int) = (153 : Nat) from rfl, tdiv_nat, index]
  refine (bind_signed (153 * Calendar.monthIndex day) (by push_cast; rfl) (by omega)).trans ?_
  refine (bind_signed (153 * Calendar.monthIndex day + 2) (by push_cast; rfl) (by omega)).trans ?_
  rw [show (5 : Int) = (5 : Nat) from rfl, tdiv_nat, start]
  generalize starts : Calendar.monthStart (Calendar.monthIndex day) = first at *
  refine (bind_signed (day - first) (by omega) (by omega)).trans ?_
  refine (bind_signed (day - first + 1) (by push_cast; rfl) (by omega)).trans ?_
  have month : (if (Calendar.monthIndex day : Int) < 10 then
      signed (Calendar.monthIndex day + 3) else signed (Calendar.monthIndex day - 9)) =
        signed (Calendar.monthOf (Calendar.monthIndex day) : Nat) := by
    unfold Calendar.monthOf
    split
    next low => rw [if_pos (by omega), Nat.cast_add, Nat.cast_ofNat]
    next high => rw [if_neg (by omega), Nat.cast_sub (by omega), Nat.cast_ofNat]
  have named : Calendar.monthOf (Calendar.monthIndex day) ≤ 14 := by
    unfold Calendar.monthOf
    split <;> omega
  rw [month]
  refine (bind_signed (Calendar.monthOf (Calendar.monthIndex day)) rfl (by omega)).trans ?_
  have told : Calendar.told era year day =
      ⟨if Calendar.monthOf (Calendar.monthIndex day) ≤ 2 then year + era * 400 + 1
        else year + era * 400, Calendar.monthOf (Calendar.monthIndex day), day - first + 1⟩ := by
    rw [Calendar.told, starts]
  rw [told]
  by_cases early : Calendar.monthOf (Calendar.monthIndex day) ≤ 2
  · rw [if_pos early, if_pos (by omega)]
    exact bind_signed (year + era * 400 + 1) (by push_cast; rfl) (by omega)
  · rw [if_neg early, if_neg (by omega)]
    rfl

/-- The day's arithmetic, on the days of some seconds. -/
theorem civilOf_days {days : Nat} (few : days < 2 ^ 50) :
    civilOf ((days + 719468) / 146097 : Nat) ((days + 719468) % 146097 : Nat) =
      some (parts (Calendar.civil days)) := by
  have within : (days + 719468) % 146097 < 146097 := Nat.mod_lt _ (by decide)
  rw [civilOf_nat (by omega) within]
  obtain ⟨era, year, day, early, short, made⟩ := Calendar.exists_told days
  have inside := (Nat.add_lt_add_left short (Calendar.daysBefore year)).trans_le
    (Calendar.year_ends year early).2.2.2.1
  have era_eq : (days + 719468) / 146097 = era := by omega
  have rest : (days + 719468) % 146097 = Calendar.daysBefore year + day := by omega
  rw [Calendar.civil_told early short made, era_eq, rest, Calendar.yearOfEra_within early short,
    Nat.add_sub_cancel_left]

theorem daysOf_nat {seconds : Nat} (fits : seconds < 2 ^ 64) :
    daysOf seconds = (seconds / 86400 : Nat) := if_pos (by omega)

/-- **A version is computed without overflow, and is the one that is told.** -/
theorem utcVersion_told {seconds : Nat} (fits : seconds < 2 ^ 64) :
    utcVersion seconds = some (Generate.utcVersion seconds) := by
  have few : seconds / 86400 < 2 ^ 50 := by omega
  have computed := civilOf_days few
  unfold utcVersion
  rw [daysOf_nat fits]
  refine (bind_signed (seconds / 86400 + 719468) (by push_cast; rfl) (by omega)).trans ?_
  rw [if_pos (by omega), Option.bind_eq_bind, Option.bind_some]
  rw [show (146097 : Int) = (146097 : Nat) from rfl, tdiv_nat]
  refine (bind_signed ((seconds / 86400 + 719468) / 146097 * 146097) (by push_cast; rfl)
    (by omega)).trans ?_
  refine (bind_signed ((seconds / 86400 + 719468) % 146097) (by omega) (by omega)).trans ?_
  rw [computed]
  rfl

/-- The timestamp of a second, as it is told. -/
def stamp (seconds millis : Nat) : String :=
  let date := Calendar.civil (seconds / 86400)
  let remainder := seconds % 86400
  String.ofList (Digits.padded 4 date.year ++ '-' :: Digits.padded 2 date.month ++
    '-' :: Digits.padded 2 date.day ++ 'T' :: Digits.padded 2 (remainder / 3600) ++
    ':' :: Digits.padded 2 (remainder % 3600 / 60) ++
    ':' :: Digits.padded 2 (remainder % 60) ++ '.' :: Digits.padded 3 millis ++ ['Z'])

/-- **A timestamp is computed without overflow, and is the one that is told.** -/
theorem rfc3339_told {seconds : Nat} (millis : Nat) (fits : seconds < 2 ^ 64) :
    rfc3339 seconds millis = some (stamp seconds millis) := by
  have few : seconds / 86400 < 2 ^ 50 := by omega
  have computed := civilOf_days few
  unfold rfc3339
  rw [daysOf_nat fits]
  refine (bind_signed (seconds / 86400 + 719468) (by push_cast; rfl) (by omega)).trans ?_
  rw [show (146097 : Int) = (146097 : Nat) from rfl, ← Int.natCast_ediv, ← Int.natCast_emod,
    computed]
  rfl

/-! ## What they say -/

/-- An instant of a year of four digits, as a version. -/
def compact (instant : Calendar.Instant) : String :=
  String.ofList (Digits.fixed 4 instant.date.year ++ Digits.fixed 2 instant.date.month ++
    Digits.fixed 2 instant.date.day ++ Digits.fixed 2 instant.hour ++
    Digits.fixed 2 instant.minute ++ Digits.fixed 2 instant.second)

/-- An instant of a year of four digits, as a timestamp. -/
def extended (instant : Calendar.Instant) (millis : Nat) : String :=
  String.ofList (Digits.fixed 4 instant.date.year ++ '-' :: Digits.fixed 2 instant.date.month ++
    '-' :: Digits.fixed 2 instant.date.day ++ 'T' :: Digits.fixed 2 instant.hour ++
    ':' :: Digits.fixed 2 instant.minute ++
    ':' :: Digits.fixed 2 instant.second ++ '.' :: Digits.padded 3 millis ++ ['Z'])

/-- The digits of a timestamp before its thousandths. -/
def digitsOf (timestamp : String) : String :=
  String.ofList ((timestamp.toList.takeWhile fun character => character ≠ '.').filter
    Digits.isDigit)

section Told

variable {seconds : Nat}

theorem instant_year : (Calendar.Instant.after seconds).date.year =
    (Calendar.civil (seconds / 86400)).year := by
  rw [← Calendar.instant_after]
  rfl

theorem utcVersion_compact (early : (Calendar.Instant.after seconds).date.year ≤ 9999) :
    Generate.utcVersion seconds = compact (Calendar.Instant.after seconds) := by
  rw [instant_year] at early
  have bounds := Calendar.civil_bounds (seconds / 86400)
  rw [← Calendar.instant_after, Generate.utcVersion, compact, Calendar.instant]
  dsimp only
  rw [Digits.padded_fixed (by omega), Digits.padded_fixed (by omega),
    Digits.padded_fixed (by omega), Digits.padded_fixed (by omega),
    Digits.padded_fixed (by omega), Digits.padded_fixed (by omega)]

theorem stamp_extended (millis : Nat)
    (early : (Calendar.Instant.after seconds).date.year ≤ 9999) :
    stamp seconds millis = extended (Calendar.Instant.after seconds) millis := by
  rw [instant_year] at early
  have bounds := Calendar.civil_bounds (seconds / 86400)
  rw [← Calendar.instant_after, stamp, extended, Calendar.instant]
  dsimp only
  rw [Digits.padded_fixed (by omega), Digits.padded_fixed (by omega),
    Digits.padded_fixed (by omega), Digits.padded_fixed (by omega),
    Digits.padded_fixed (by omega), Digits.padded_fixed (by omega)]

theorem takeWhile_digits {digits rest : List Char}
    (all : ∀ character ∈ digits, character ≠ '.') :
    (digits ++ '.' :: rest).takeWhile (fun character => character ≠ '.') = digits := by
  rw [List.takeWhile_append_of_pos fun character member => decide_eq_true (all character member)]
  simp

theorem filter_padded (width number : Nat) :
    (Digits.padded width number).filter Digits.isDigit = Digits.padded width number :=
  List.filter_eq_self.mpr fun _ member => Digits.isDigit_padded member

theorem filter_marked (mark : Char) (plain : ¬Digits.isDigit mark = true) {width number : Nat} :
    (mark :: Digits.padded width number).filter Digits.isDigit = Digits.padded width number := by
  rw [List.filter_cons_of_neg plain, filter_padded]

theorem dotless_padded {width number : Nat} {character : Char}
    (member : character ∈ Digits.padded width number) : character ≠ '.' := by
  rintro rfl
  exact absurd (Digits.isDigit_padded member) (by decide)

/-- **A timestamp and a version agree.** -/
theorem digitsOf_stamp (seconds millis : Nat) :
    digitsOf (stamp seconds millis) = Generate.utcVersion seconds := by
  unfold digitsOf stamp Generate.utcVersion
  dsimp only
  rw [String.toList_ofList, List.append_assoc, List.cons_append, takeWhile_digits]
  · simp only [List.filter_append, filter_padded, filter_marked '-' (by decide),
      filter_marked 'T' (by decide), filter_marked ':' (by decide)]
  · intro character member
    simp only [List.mem_append, List.mem_cons] at member
    rcases member with ((((year | rfl | month) | rfl | day) | rfl | hour) | rfl | minute) |
      rfl | second
    all_goals first | decide | exact dotless_padded ‹_›

end Told

/-! ## Later seconds -/

theorem number_succ (seconds : Nat) :
    Digits.number (Generate.utcVersion seconds).toList <
      Digits.number (Generate.utcVersion (seconds + 1)).toList := by
  have bounds := Calendar.civil_bounds (seconds / 86400)
  rw [Generate.number_utcVersion, Generate.number_utcVersion]
  by_cases within : (seconds + 1) / 86400 = seconds / 86400
  · rw [within]
    generalize Calendar.civil (seconds / 86400) = date
    omega
  · have next : (seconds + 1) / 86400 = seconds / 86400 + 1 := by omega
    rw [next, Calendar.civil_succ]
    generalize Calendar.civil (seconds / 86400) = date at *
    unfold Calendar.Civil.next
    split
    next => dsimp only; omega
    next =>
      split
      next => dsimp only; omega
      next => dsimp only; omega

theorem number_mono :
    StrictMono fun seconds => Digits.number (Generate.utcVersion seconds).toList :=
  strictMono_nat_of_lt_succ number_succ

theorem length_utcVersion {seconds : Nat}
    (early : (Calendar.civil (seconds / 86400)).year ≤ 9999) :
    (Generate.utcVersion seconds).toList.length = 14 := by
  have bounds := Calendar.civil_bounds (seconds / 86400)
  simp only [Generate.utcVersion, String.toList_ofList, List.length_append]
  rw [Digits.length_padded (by omega), Digits.length_padded (by omega),
    Digits.length_padded (by omega), Digits.length_padded (by omega),
    Digits.length_padded (by omega), Digits.length_padded (by omega)]

theorem digits_utcVersion (seconds : Nat) :
    ∀ digit ∈ (Generate.utcVersion seconds).toList, Digits.isDigit digit = true := by
  intro digit member
  simp only [Generate.utcVersion, String.toList_ofList, List.mem_append] at member
  rcases member with ((((year | month) | day) | hour) | minute) | second
  all_goals exact Digits.isDigit_padded ‹_›

theorem year_mono {first later : Nat} (less : first < later) :
    (Calendar.civil (first / 86400)).year ≤ (Calendar.civil (later / 86400)).year := by
  have numbers := number_mono less
  have bounds := Calendar.civil_bounds (first / 86400)
  have bounds' := Calendar.civil_bounds (later / 86400)
  simp only [Generate.number_utcVersion] at numbers
  omega

/-- **A later second has a greater version.** -/
theorem utcVersion_lt {first later : Nat} (less : first < later)
    (early : (Calendar.civil (later / 86400)).year ≤ 9999) :
    Generate.utcVersion first < Generate.utcVersion later := by
  rw [String.lt_iff_toList_lt]
  refine Digits.lt_of_number_lt ?_ (digits_utcVersion first) (digits_utcVersion later)
    (number_mono less)
  rw [length_utcVersion early, length_utcVersion ((year_mono less).trans early)]

/-- The year ten thousand is within 64 bits. -/
theorem fits_of_early {seconds : Nat} (early : (Calendar.Instant.after seconds).date.year ≤ 9999) :
    seconds < 2 ^ 64 := by
  by_contra late
  rw [instant_year] at early
  have reached := year_mono (show 253402300800 < seconds by omega)
  have year : (Calendar.civil (253402300800 / 86400)).year = 10000 := by decide +kernel
  omega

/-! ## Allocation -/

/-- A second's version is not taken. -/
def Free (taken : List String) (second : Nat) : Prop :=
  ∃ version, utcVersion second = some version ∧ version ∉ taken

theorem free_iff {taken : List String} {second : Nat} (fits : second < 2 ^ 64) :
    Free taken second ↔ Generate.utcVersion second ∉ taken := by
  unfold Free
  rw [utcVersion_told fits]
  exact ⟨fun ⟨version, same, free⟩ => Option.some.inj same ▸ free, fun free => ⟨_, rfl, free⟩⟩

/-- No more seconds are taken in a row than there are versions taken. -/
theorem waited_le {taken : List String} {now waited : Nat}
    (before : ∀ less < waited, Generate.utcVersion (now + less) ∈ taken) :
    waited ≤ taken.length := by
  have distinct : ((List.range waited).map fun less => Generate.utcVersion (now + less)).Nodup :=
    List.nodup_range.map fun first second same =>
      Nat.add_left_cancel (Generate.utcVersion_injective same)
  have within : ((List.range waited).map fun less => Generate.utcVersion (now + less)) ⊆ taken := by
    intro version member
    obtain ⟨less, below, rfl⟩ := List.mem_map.mp member
    exact before less (List.mem_range.mp below)
  have short := (distinct.subperm within).length_le
  rwa [List.length_map, List.length_range] at short

theorem allocateVersion_some {taken : List String} {looks candidate waited : Nat}
    (fits : candidate + waited < 2 ^ 64) (few : waited < looks)
    (free : Generate.utcVersion (candidate + waited) ∉ taken)
    (before : ∀ less < waited, Generate.utcVersion (candidate + less) ∈ taken) :
    allocateVersion taken looks candidate = some (Generate.utcVersion (candidate + waited)) := by
  induction waited generalizing looks candidate with
  | zero =>
      obtain ⟨looks, rfl⟩ := Nat.exists_eq_succ_of_ne_zero (Nat.ne_of_gt few)
      rw [allocateVersion, utcVersion_told (show candidate < 2 ^ 64 by omega)]
      exact if_neg free
  | succ waited ih =>
      obtain ⟨looks, rfl⟩ := Nat.exists_eq_succ_of_ne_zero (Nat.ne_of_gt (Nat.zero_lt_of_lt few))
      have shifted : ∀ count, candidate + (count + 1) = candidate + 1 + count := by omega
      rw [shifted] at fits free
      have later : ∀ less < waited, Generate.utcVersion (candidate + 1 + less) ∈ taken := by
        intro less below
        rw [← shifted]
        exact before (less + 1) (Nat.succ_lt_succ below)
      have held : Generate.utcVersion candidate ∈ taken := before 0 (Nat.succ_pos _)
      have room : unsigned (candidate + 1) = some (candidate + 1) := if_pos (by omega)
      have next := @ih looks (candidate + 1) fits (Nat.lt_of_succ_lt_succ few) free later
      rw [allocateVersion, utcVersion_told (show candidate < 2 ^ 64 by omega), shifted waited, ← next]
      refine (if_pos held).trans ?_
      rw [room, Option.bind_eq_bind, Option.bind_some]

/-- The first free second is found. -/
theorem allocateVersion_first {taken : List String} {now second : Nat} (from_ : now ≤ second)
    (fits : second < 2 ^ 64) (free : Free taken second) :
    ∃ first version, now ≤ first ∧ first ≤ second ∧ utcVersion first = some version ∧
      version ∉ taken ∧ (∀ earlier, now ≤ earlier → earlier < first → ¬Free taken earlier) ∧
      ∀ looks, taken.length < looks → allocateVersion taken looks now = some version := by
  obtain ⟨waited, _, own, before⟩ := Generate.allocateVersion_first taken now
  rw [free_iff fits] at free
  have reached : now + waited ≤ second := by
    by_contra late
    refine free ?_
    have held := before (second - now) (by omega)
    rwa [Nat.add_sub_cancel' from_] at held
  have within : now + waited < 2 ^ 64 := reached.trans_lt fits
  refine ⟨now + waited, _, Nat.le_add_right .., reached, utcVersion_told within, own,
    fun earlier from_ below => ?_, fun looks few => ?_⟩
  · rw [free_iff (below.trans within), not_not]
    have held := before (earlier - now) (by omega)
    rwa [Nat.add_sub_cancel' from_] at held
  · exact allocateVersion_some within ((waited_le before).trans_lt few) own before

/-- Where there are more seconds left than versions taken, one is free. -/
theorem exists_free {taken : List String} {now : Nat} (room : now + taken.length < 2 ^ 64) :
    ∃ second, now ≤ second ∧ second < 2 ^ 64 ∧ Free taken second := by
  obtain ⟨waited, _, own, before⟩ := Generate.allocateVersion_first taken now
  have within := waited_le before
  refine ⟨now + waited, Nat.le_add_right .., by omega, ?_⟩
  rwa [free_iff (by omega)]

/-- **Versions and timestamps.** No step overflows; up to the year 9999 both tell the instant
that is counted to, and agree; later seconds have greater versions; and a version is allocated,
the first from now on that is free, after at most as many looks as there are versions taken. -/
theorem versions_told :
    (∀ seconds < 2 ^ 64, ∀ millis,
      (utcVersion seconds).isSome = true ∧ (rfc3339 seconds millis).isSome = true) ∧
    (∀ seconds millis, (Calendar.Instant.after seconds).date.year ≤ 9999 →
      utcVersion seconds = some (compact (Calendar.Instant.after seconds)) ∧
      rfc3339 seconds millis = some (extended (Calendar.Instant.after seconds) millis) ∧
      (rfc3339 seconds millis).map digitsOf = utcVersion seconds) ∧
    (∀ first later, first < later → (Calendar.Instant.after later).date.year ≤ 9999 →
      ∃ version after, utcVersion first = some version ∧ utcVersion later = some after ∧
        version < after) ∧
    (∀ taken now second, now ≤ second → second < 2 ^ 64 → Free taken second →
      ∃ first version, now ≤ first ∧ first ≤ second ∧ utcVersion first = some version ∧
        version ∉ taken ∧ (∀ earlier, now ≤ earlier → earlier < first → ¬Free taken earlier) ∧
        ∀ looks, taken.length < looks → allocateVersion taken looks now = some version) ∧
    ∀ (taken : List String) now, now + taken.length < 2 ^ 64 →
      ∃ second, now ≤ second ∧ second < 2 ^ 64 ∧ Free taken second := by
  refine ⟨fun seconds fits millis => ?_, fun seconds millis early => ?_,
    fun first later less early => ?_, fun taken now second from_ fits free => ?_,
    fun taken now room => ?_⟩
  · rw [utcVersion_told fits, rfc3339_told millis fits]
    exact ⟨rfl, rfl⟩
  · have fits := fits_of_early early
    rw [utcVersion_told fits, rfc3339_told millis fits, Option.map_some, digitsOf_stamp,
      ← utcVersion_compact early, ← stamp_extended millis early]
    exact ⟨rfl, rfl, rfl⟩
  · have fits := fits_of_early early
    rw [instant_year] at early
    exact ⟨_, _, utcVersion_told (less.trans fits), utcVersion_told fits, utcVersion_lt less early⟩
  · exact allocateVersion_first from_ fits free
  · exact exists_free room

end Renvor.Clock
