import Mathlib.Data.List.Sort
import Mathlib.Data.String.Basic
import Renvor.Foundation.Calendar
import Renvor.Foundation.Digits
import Renvor.Kernel.Text

/-! # Versions of migrations

A migration is a pair of files, `<version>_<name>.up.sql` and its way back. A pair
that is generated again keeps its version, and a new one gets the first second from
now on that no migration holds (`Renvor.Generate.allocateVersion_first`).
-/

namespace Renvor.Generate

open Foundation

inductive MigrationFault
  | renderFailed | clockBeforeEpoch | unsupportedValue | generationConflict (versions : List String)
  deriving DecidableEq

/-- A lowercase identifier. -/
def validMigrationName (name : String) : Bool :=
  !name.isEmpty && name.utf8ByteSize ≤ 64 && name.toList.head?.any Char.isLower &&
    name.toList.all fun character =>
      character.isLower || isAsciiDigit character || character = '_'

structure MigrationName where
  text : String
  valid : validMigrationName text = true

def MigrationName.validate (name : String) : Except MigrationFault MigrationName :=
  if valid : validMigrationName name = true then .ok ⟨name, valid⟩ else .error .unsupportedValue

/-! ## Versions -/

/-- The second, told in the civil calendar. -/
def utcVersion (seconds : Nat) : String :=
  let date := Calendar.civil (seconds / 86400)
  let remainder := seconds % 86400
  String.ofList (Digits.padded 4 date.year ++ Digits.padded 2 date.month ++
    Digits.padded 2 date.day ++ Digits.padded 2 (remainder / 3600) ++
    Digits.padded 2 (remainder % 3600 / 60) ++ Digits.padded 2 (remainder % 60))

/-- Digits. -/
def isVersion (version : List Char) : Bool := !version.isEmpty && version.all isAsciiDigit

def upSuffix : String := ".up.sql"

def downSuffix : String := ".down.sql"

/-- The version a file begins with and what follows it, where it is a migration's. -/
def versionAndRest (file : String) : Option (String × List Char) :=
  match splitOnce ['_'] file.toList with
  | none => none
  | some (version, rest) =>
      if isVersion version &&
          (upSuffix.toList.isSuffixOf rest || downSuffix.toList.isSuffixOf rest) then
        some (String.ofList version, rest)
      else none

def versionOf (file : String) : Option String := (versionAndRest file).map Prod.fst

/-- The file of a migration for one of its ways. -/
def fileOf (version name way : String) : String := version ++ "_" ++ name ++ way

/-- The version before a name's forward file, the least of them. -/
def existingVersion (files : List String) (name : String) : Option String :=
  let found := files.filterMap fun file =>
    (stripSuffix ("_" ++ name ++ upSuffix).toList file.toList).map String.ofList
  (found.insertionSort (· ≤ ·)).head?

def existingVersions (files : List String) : List String := files.filterMap versionOf

/-- The first second from one on whose version is not taken; looking at as many
seconds as there are taken versions is enough. -/
def allocateFrom (taken : List String) : Nat → Nat → String
  | 0, candidate => utcVersion candidate
  | looks + 1, candidate =>
      if utcVersion candidate ∈ taken then allocateFrom taken looks (candidate + 1)
      else utcVersion candidate

def allocateVersion (taken : List String) (now : Nat) : String :=
  allocateFrom taken taken.length now

/-- What reading the directory gives. -/
inductive Listing
  | missing
  | unreadable
  | files (names : List String)

/-- The files that are there; a directory that is not has none. -/
def Listing.read : Listing → Except MigrationFault (List String)
  | .missing => .ok []
  | .unreadable => .error .renderFailed
  | .files names => .ok names

/-- The version for the pair of a name, at a time in seconds from the epoch. -/
def versionFor (listing : Listing) (name : String) (clock : Int) :
    Except MigrationFault String := do
  let files ← listing.read
  match existingVersion files name with
  | some version => return version
  | none =>
      if clock < 0 then throw .clockBeforeEpoch
      else return allocateVersion (existingVersions files) clock.toNat

/-- The files of a pair. -/
def plannedPair (version name : String) : List String :=
  [fileOf version name upSuffix, fileOf version name downSuffix]

/-- The versions that files of another migration hold already. -/
def collidingVersions (files planned : List String) : List String :=
  (planned.filterMap fun file =>
    (versionOf file).filter fun version =>
      decide (version ∈ existingVersions files ∧ file ∉ files)).dedup

/-! ## No two seconds are told alike -/

theorem number_utcVersion (seconds : Nat) : Digits.number (utcVersion seconds).toList =
    (((((Calendar.civil (seconds / 86400)).year * 100 +
      (Calendar.civil (seconds / 86400)).month) * 100 +
      (Calendar.civil (seconds / 86400)).day) * 100 + seconds % 86400 / 3600) * 100 +
      seconds % 86400 % 3600 / 60) * 100 + seconds % 86400 % 60 := by
  have bounds := Calendar.civil_bounds (seconds / 86400)
  simp only [utcVersion, String.toList_ofList, Digits.number_append, Digits.number_padded]
  rw [Digits.length_padded (by omega), Digits.length_padded (by omega),
    Digits.length_padded (by omega), Digits.length_padded (by omega),
    Digits.length_padded (by omega)]
  norm_num

theorem utcVersion_injective : Function.Injective utcVersion := by
  intro seconds others same
  have numbers := congrArg (fun version => Digits.number version.toList) same
  simp only [number_utcVersion] at numbers
  have bounds := Calendar.civil_bounds (seconds / 86400)
  have bounds' := Calendar.civil_bounds (others / 86400)
  have days : Calendar.civil (seconds / 86400) = Calendar.civil (others / 86400) := by
    have parts : (Calendar.civil (seconds / 86400)).year = (Calendar.civil (others / 86400)).year ∧
        (Calendar.civil (seconds / 86400)).month = (Calendar.civil (others / 86400)).month ∧
        (Calendar.civil (seconds / 86400)).day = (Calendar.civil (others / 86400)).day := by
      omega
    exact Calendar.Civil.ext parts.1 parts.2.1 parts.2.2
  have day := Calendar.civil_injective days
  rw [days] at numbers
  omega

theorem isVersion_utcVersion (seconds : Nat) : isVersion (utcVersion seconds).toList = true := by
  have digits : ∀ width number, (Digits.padded width number).all isAsciiDigit = true := by
    intro width number
    exact List.all_eq_true.mpr fun _ member => Digits.isDigit_padded member
  simp only [utcVersion, String.toList_ofList, isVersion, List.all_append, digits, Bool.and_self,
    Bool.and_true, Bool.not_eq_true', List.isEmpty_eq_false_iff]
  simp [Digits.padded_ne_nil]

/-- **A version is allocated that none holds, the first from now on.** -/
theorem allocateVersion_first (taken : List String) (now : Nat) :
    ∃ waited, allocateVersion taken now = utcVersion (now + waited) ∧
      utcVersion (now + waited) ∉ taken ∧ ∀ less < waited, utcVersion (now + less) ∈ taken := by
  have looked : ∀ looks candidate, (∃ waited, waited < looks ∧
        allocateFrom taken looks candidate = utcVersion (candidate + waited) ∧
        utcVersion (candidate + waited) ∉ taken ∧
        ∀ less < waited, utcVersion (candidate + less) ∈ taken) ∨
      (allocateFrom taken looks candidate = utcVersion (candidate + looks) ∧
        ∀ less < looks, utcVersion (candidate + less) ∈ taken) := by
    intro looks
    induction looks with
    | zero => exact fun candidate => .inr ⟨rfl, fun less none => (Nat.not_lt_zero less none).elim⟩
    | succ looks ih =>
        intro candidate
        unfold allocateFrom
        by_cases held : utcVersion candidate ∈ taken
        · rw [if_pos held]
          have shifted : ∀ count, candidate + 1 + count = candidate + (count + 1) := by omega
          have before : ∀ {count}, (∀ less < count, utcVersion (candidate + 1 + less) ∈ taken) →
              ∀ less < count + 1, utcVersion (candidate + less) ∈ taken := by
            intro count later less below
            cases less with
            | zero => exact held
            | succ less =>
                rw [← shifted]
                exact later less (Nat.lt_of_succ_lt_succ below)
          obtain ⟨waited, few, found, free, later⟩ | ⟨found, later⟩ := ih (candidate + 1)
          · rw [shifted] at found free
            exact .inl ⟨waited + 1, Nat.succ_lt_succ few, found, free, before later⟩
          · rw [shifted] at found
            exact .inr ⟨found, before later⟩
        · rw [if_neg held]
          exact .inl ⟨0, Nat.succ_pos looks, rfl, held, fun less none => (Nat.not_lt_zero less none).elim⟩
  obtain ⟨waited, _, found, free, before⟩ | ⟨found, before⟩ := looked taken.length now
  · exact ⟨waited, found, free, before⟩
  · refine ⟨taken.length, found, fun held => ?_, before⟩
    -- more seconds would be taken than there are versions
    have distinct : ((List.range (taken.length + 1)).map fun less => utcVersion (now + less)).Nodup :=
      List.nodup_range.map fun first second same =>
        Nat.add_left_cancel (utcVersion_injective same)
    have within : ((List.range (taken.length + 1)).map fun less => utcVersion (now + less)) ⊆
        taken := by
      intro version member
      obtain ⟨less, below, rfl⟩ := List.mem_map.mp member
      rcases Nat.lt_succ_iff_lt_or_eq.mp (List.mem_range.mp below) with early | rfl
      · exact before less early
      · exact held
    have short := (distinct.subperm within).length_le
    rw [List.length_map, List.length_range] at short
    exact Nat.lt_irrefl _ short

end Renvor.Generate
