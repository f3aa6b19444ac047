import Mathlib.Algebra.GroupWithZero.Nat
import Mathlib.Data.Vector.Basic
import Renvor.Kernel.Entropy
import Renvor.Kernel.Text

/-! # IP addresses, read as the standard library reads them -/

namespace Renvor

/-- What a digit stands for in a radix of at most sixteen. -/
def digitValue (radix : Nat) (character : Char) : Option Nat :=
  let value :=
    if '0' ≤ character ∧ character ≤ '9' then some (character.toNat - '0'.toNat)
    else if 'a' ≤ character ∧ character ≤ 'f' then some (character.toNat - 'a'.toNat + 10)
    else if 'A' ≤ character ∧ character ≤ 'F' then some (character.toNat - 'A'.toNat + 10)
    else none
  value.filter (· < radix)

/-- Reads from the front of a text, and leaves the rest. -/
abbrev Reader (Value : Type) := List Char → Option (Value × List Char)

/-- A number of at most so many digits, within a bound. -/
def readNumber (radix maxDigits bound : Nat) [NeZero bound] (zeros : Bool) : Reader (Fin bound) :=
  fun text =>
    let digits := text.takeWhile fun character => (digitValue radix character).isSome
    let value := digits.foldl (fun value digit => radix * value + (digitValue radix digit).getD 0) 0
    if digits.isEmpty || maxDigits < digits.length || bound ≤ value ||
        !zeros && digits.head? = some '0' && 1 < digits.length then none
    else some (Fin.ofNat bound value, text.drop digits.length)

def readChar (character : Char) : Reader Unit
  | first :: rest => if first = character then some ((), rest) else none
  | [] => none

/-- Reads what comes after a separator, or first. -/
def readSeparated {Value : Type} (separator : Char) (first : Bool) (reader : Reader Value) :
    Reader Value := fun text =>
  if first then reader text
  else (readChar separator text).bind fun (_, rest) => reader rest

def readOctet (first : Bool) : Reader Byte :=
  readSeparated '.' first (readNumber 10 3 256 false)

def readIpv4 : Reader (List.Vector Byte 4) := fun text => do
  let (one, text) ← readOctet true text
  let (two, text) ← readOctet false text
  let (three, text) ← readOctet false text
  let (four, text) ← readOctet false text
  return (⟨[one, two, three, four], rfl⟩, text)

/-- Two octets of an address. -/
abbrev Segment := Byte × Byte

theorem segments_ne_zero : NeZero 65536 := inferInstance

def readSegment : Reader Segment := fun text => do
  let (value, text) ← @readNumber 16 4 65536 segments_ne_zero true text
  return ((Fin.ofNat 256 (value.val / 256), Fin.ofNat 256 value.val), text)

/-- Groups read into so many slots, and whether an address of the other family
ended them. -/
structure Groups (slots : Nat) where
  segments : List Segment
  fits : segments.length ≤ slots
  embedded : Bool
  rest : List Char

/-- Reads groups, up to an address of the other family, which takes two slots. -/
def readGroups : (slots : Nat) → Bool → List Char → Groups slots
  | 0, _, text => ⟨[], Nat.le_refl 0, false, text⟩
  | 1, first, text => match readSeparated ':' first readSegment text with
      | none => ⟨[], Nat.zero_le _, false, text⟩
      | some (group, rest) => ⟨[group], Nat.le_refl 1, false, rest⟩
  | slots + 2, first, text => match readSeparated ':' first readIpv4 text with
      | some (octets, rest) =>
          ⟨[(octets.get 0, octets.get 1), (octets.get 2, octets.get 3)], Nat.le_add_left 2 slots,
            true, rest⟩
      | none => match readSeparated ':' first readSegment text with
          | none => ⟨[], Nat.zero_le _, false, text⟩
          | some (group, rest) =>
              let more := readGroups (slots + 1) false rest
              ⟨group :: more.segments, Nat.succ_le_succ more.fits, more.embedded, more.rest⟩

/-- The octets of groups, one after the other. -/
def octetsOf (groups : List Segment) : List Byte := groups.flatMap fun group => [group.1, group.2]

theorem octetsOf_length (groups : List Segment) : (octetsOf groups).length = 2 * groups.length := by
  induction groups with
  | nil => rfl
  | cons group rest ih =>
      show (octetsOf rest).length + 1 + 1 = 2 * (rest.length + 1)
      omega

def readIpv6 : Reader (List.Vector Byte 16) := fun text =>
  let head := readGroups 8 true text
  if whole : head.segments.length = 8 then
    some (⟨octetsOf head.segments, by rw [octetsOf_length, whole]⟩, head.rest)
  else if head.embedded then none
  else do
    let (_, rest) ← readChar ':' head.rest
    let (_, rest) ← readChar ':' rest
    let tail := readGroups (8 - (head.segments.length + 1)) true rest
    let zeros := 8 - head.segments.length - tail.segments.length
    return (⟨octetsOf (head.segments ++ List.replicate zeros (0, 0) ++ tail.segments), by
      have front := head.fits
      have back := tail.fits
      simp only [octetsOf_length, List.length_append, List.length_replicate, zeros]
      omega⟩, tail.rest)

inductive IpAddr
  | v4 (octets : List.Vector Byte 4)
  | v6 (octets : List.Vector Byte 16)
  deriving DecidableEq

/-- The last four octets of an address that is a mapped IPv4 address. -/
def toIpv4Mapped (octets : List.Vector Byte 16) : Option (List Byte) :=
  if octets.toList.take 12 = List.replicate 10 0 ++ [255, 255] then some (octets.toList.drop 12)
  else none

/-- An address of the one family that is mapped into the other stands for itself. -/
def IpAddr.toCanonical : IpAddr → IpAddr
  | v4 octets => v4 octets
  | v6 octets =>
      if octets.toList.take 12 = List.replicate 10 0 ++ [255, 255] then
        v4 ⟨octets.toList.drop 12, by simp⟩
      else v6 octets

/-- Reads an address that is the whole text. -/
def IpAddr.parse (text : List Char) : Option IpAddr :=
  let read := match readIpv4 text with
    | some (octets, rest) => some (v4 octets, rest)
    | none => (readIpv6 text).map fun (octets, rest) => (v6 octets, rest)
  match read with
  | some (address, []) => some address
  | _ => none

/-! ## The characters of an address -/

/-- What a reader takes from a text has only such characters. -/
def Consumes {Value : Type} (allowed : Char → Prop) (reader : Reader Value) : Prop :=
  ∀ text value rest, reader text = some (value, rest) →
    ∃ front, text = front ++ rest ∧ ∀ character ∈ front, allowed character

section Consumes

variable {Value : Type} {allowed weaker : Char → Prop} {reader : Reader Value}

theorem Consumes.mono (consumes : Consumes allowed reader)
    (weak : ∀ character, allowed character → weaker character) : Consumes weaker reader := by
  intro text value rest read
  obtain ⟨front, whole, meets⟩ := consumes text value rest read
  exact ⟨front, whole, fun character member => weak character (meets character member)⟩

theorem consumes_number {radix maxDigits bound : Nat} [NeZero bound] {zeros : Bool} :
    Consumes (fun character => (digitValue radix character).isSome)
      (readNumber radix maxDigits bound zeros) := by
  intro text value rest read
  simp only [readNumber] at read
  split at read
  next => cases read
  next =>
    cases read
    have begins := List.takeWhile_prefix (fun character => (digitValue radix character).isSome)
      (l := text)
    refine ⟨_, (List.prefix_iff_eq_append.mp begins).symm, ?_⟩
    exact fun character member => List.all_eq_true.mp List.all_takeWhile character member

theorem readChar_some {character : Char} {text rest : List Char} {read' : Unit}
    (read : readChar character text = some (read', rest)) : text = character :: rest := by
  cases text with
  | nil => cases read
  | cons first tail =>
      by_cases same : first = character
      · rw [readChar, if_pos same] at read
        cases read
        rw [same]
      · rw [readChar, if_neg same] at read
        cases read

/-- What comes after a separator is consumed with it. -/
theorem Consumes.separated {separator : Char} {first : Bool} (consumes : Consumes allowed reader)
    (separates : allowed separator) {text rest : List Char} {value : Value}
    (read : readSeparated separator first reader text = some (value, rest)) :
    ∃ front, text = front ++ rest ∧ (∀ character ∈ front, allowed character) ∧
      (first = false → separator ∈ front) := by
  cases first with
  | true =>
      obtain ⟨front, whole, meets⟩ := consumes text value rest read
      exact ⟨front, whole, meets, fun last => by cases last⟩
  | false =>
      obtain ⟨⟨_, after⟩, separated, read⟩ := Option.bind_eq_some_iff.mp read
      obtain ⟨front, rfl, meets⟩ := consumes after value rest read
      refine ⟨separator :: front, readChar_some separated, ?_, fun _ => List.mem_cons_self⟩
      exact List.forall_mem_cons.mpr ⟨separates, meets⟩

/-- The characters of an IPv4 address. -/
def Decimal (character : Char) : Prop := (digitValue 10 character).isSome ∨ character = '.'

theorem consumes_ipv4 : Consumes Decimal readIpv4 := by
  have octet : ∀ first, Consumes Decimal (readOctet first) := by
    intro first text value rest read
    have number : Consumes Decimal (readNumber 10 3 256 false) :=
      consumes_number.mono fun _ digit => .inl digit
    obtain ⟨front, whole, meets, _⟩ := number.separated (.inr rfl) read
    exact ⟨front, whole, meets⟩
  intro text value rest read
  obtain ⟨⟨one, text₁⟩, read₁, read⟩ := Option.bind_eq_some_iff.mp read
  obtain ⟨⟨two, text₂⟩, read₂, read⟩ := Option.bind_eq_some_iff.mp read
  obtain ⟨⟨three, text₃⟩, read₃, read⟩ := Option.bind_eq_some_iff.mp read
  obtain ⟨⟨four, text₄⟩, read₄, read⟩ := Option.bind_eq_some_iff.mp read
  cases read
  obtain ⟨front₁, rfl, meets₁⟩ := octet _ _ _ _ read₁
  obtain ⟨front₂, rfl, meets₂⟩ := octet _ _ _ _ read₂
  obtain ⟨front₃, rfl, meets₃⟩ := octet _ _ _ _ read₃
  obtain ⟨front₄, rfl, meets₄⟩ := octet _ _ _ _ read₄
  refine ⟨front₁ ++ (front₂ ++ (front₃ ++ front₄)), by simp, ?_⟩
  simp only [List.forall_mem_append]
  exact ⟨meets₁, meets₂, meets₃, meets₄⟩

/-- The characters of an IPv6 address. -/
def Hexadecimal (character : Char) : Prop :=
  (digitValue 16 character).isSome ∨ character = ':' ∨ character = '.'

theorem Decimal.hexadecimal {character : Char} (decimal : Decimal character) :
    Hexadecimal character := by
  obtain digit | dot := decimal
  · left
    obtain ⟨value, found⟩ := Option.isSome_iff_exists.mp digit
    obtain ⟨found, below⟩ := Option.filter_eq_some_iff.mp found
    refine Option.isSome_iff_exists.mpr ⟨value, Option.filter_eq_some_iff.mpr ⟨found, ?_⟩⟩
    have below := of_decide_eq_true below
    exact decide_eq_true (by omega)
  · exact .inr (.inr dot)

theorem consumes_segment : Consumes Hexadecimal readSegment := by
  intro text value rest read
  obtain ⟨⟨number, after⟩, read, ends⟩ := Option.bind_eq_some_iff.mp read
  cases ends
  exact consumes_number.mono (fun _ digit => .inl digit) _ _ _ read

/-- Groups are of such characters, and one that is not the first is separated. -/
theorem readGroups_consumes (slots : Nat) (first : Bool) (text : List Char) :
    ∃ front, text = front ++ (readGroups slots first text).rest ∧
      (∀ character ∈ front, Hexadecimal character) ∧
      (first = false → (readGroups slots first text).segments ≠ [] → ':' ∈ front) := by
  have embeds : Consumes Hexadecimal readIpv4 := consumes_ipv4.mono fun _ => Decimal.hexadecimal
  induction slots using Nat.twoStepInduction generalizing first text with
  | zero => exact ⟨[], rfl, by simp, fun _ none => (none rfl).elim⟩
  | one =>
      unfold readGroups
      split
      next => exact ⟨[], rfl, by simp, fun _ none => (none rfl).elim⟩
      next group rest read =>
        obtain ⟨front, whole, meets, separates⟩ := consumes_segment.separated (.inr (.inl rfl)) read
        exact ⟨front, whole, meets, fun later _ => separates later⟩
  | more slots _ ih =>
      unfold readGroups
      split
      next octets rest read =>
        obtain ⟨front, whole, meets, separates⟩ := embeds.separated (.inr (.inl rfl)) read
        exact ⟨front, whole, meets, fun later _ => separates later⟩
      next =>
        split
        next => exact ⟨[], rfl, by simp, fun _ none => (none rfl).elim⟩
        next group rest read =>
          obtain ⟨front, rfl, meets, separates⟩ :=
            consumes_segment.separated (.inr (.inl rfl)) read
          obtain ⟨more, whole, also, _⟩ := ih false rest
          refine ⟨front ++ more, ?_, ?_, ?_⟩
          · rw [List.append_assoc, ← whole]
          · exact List.forall_mem_append.mpr ⟨meets, also⟩
          · exact fun later _ => List.mem_append_left _ (separates later)

/-- Eight groups have a separator. -/
theorem readGroups_eight {text : List Char}
    (whole : (readGroups 8 true text).segments.length = 8) :
    ∃ front, text = front ++ (readGroups 8 true text).rest ∧
      (∀ character ∈ front, Hexadecimal character) ∧ ':' ∈ front := by
  unfold readGroups at whole ⊢
  split at whole
  next => cases whole
  next =>
    split at whole
    next => cases whole
    next group rest read =>
      obtain ⟨front, rfl, meets, _⟩ := consumes_segment.separated (.inr (.inl rfl)) read
      obtain ⟨more, rests, also, separates⟩ := readGroups_consumes 7 false rest
      refine ⟨front ++ more, ?_, ?_, ?_⟩
      · rw [List.append_assoc, ← rests]
      · exact List.forall_mem_append.mpr ⟨meets, also⟩
      · refine List.mem_append_right _ (separates rfl fun empty => ?_)
        rw [List.length_cons, empty] at whole
        cases whole

theorem consumes_ipv6 {text rest : List Char} {octets : List.Vector Byte 16}
    (read : readIpv6 text = some (octets, rest)) : ∃ front, text = front ++ rest ∧
      (∀ character ∈ front, Hexadecimal character) ∧ ':' ∈ front := by
  unfold readIpv6 at read
  dsimp only at read
  split at read
  next whole =>
    cases read
    exact readGroups_eight whole
  next =>
    split at read
    next => cases read
    next =>
      obtain ⟨⟨_, rest₁⟩, read₁, read⟩ := Option.bind_eq_some_iff.mp read
      obtain ⟨⟨_, rest₂⟩, read₂, read⟩ := Option.bind_eq_some_iff.mp read
      cases read
      obtain ⟨head, whole, meets, _⟩ := readGroups_consumes 8 true text
      obtain ⟨tail, back, also, _⟩ :=
        readGroups_consumes (8 - ((readGroups 8 true text).segments.length + 1)) true rest₂
      have colon : Hexadecimal ':' := .inr (.inl rfl)
      refine ⟨head ++ ':' :: ':' :: tail, ?_, ?_, by simp⟩
      · have second : rest₁ = ':' :: rest₂ := readChar_some read₂
        rw [readChar_some read₁, second, back] at whole
        exact whole.trans (List.append_assoc head (':' :: ':' :: tail) _).symm
      · simp only [List.forall_mem_append, List.forall_mem_cons]
        exact ⟨meets, colon, colon, also⟩

theorem IpAddr.parse_v4 {text : List Char} {octets : List.Vector Byte 4}
    (parsed : parse text = some (.v4 octets)) : ∀ character ∈ text, Decimal character := by
  unfold parse at parsed
  dsimp only at parsed
  split at parsed
  next address reads =>
    cases parsed
    split at reads
    next found rest read =>
      cases reads
      obtain ⟨front, rfl, meets⟩ := consumes_ipv4 _ _ _ read
      rw [List.append_nil]
      exact meets
    next =>
      obtain ⟨_, _, ⟨⟩⟩ := Option.map_eq_some_iff.mp reads
  next => cases parsed

theorem IpAddr.parse_v6 {text : List Char} {octets : List.Vector Byte 16}
    (parsed : parse text = some (.v6 octets)) :
    (∀ character ∈ text, Hexadecimal character) ∧ ':' ∈ text := by
  unfold parse at parsed
  dsimp only at parsed
  split at parsed
  next address reads =>
    cases parsed
    split at reads
    next => cases reads
    next =>
      obtain ⟨⟨found, rest⟩, read, ends⟩ := Option.map_eq_some_iff.mp reads
      cases ends
      obtain ⟨front, rfl, meets⟩ := consumes_ipv6 read
      rw [List.append_nil]
      exact meets
  next => cases parsed

theorem IpAddr.parse_hexadecimal {text : List Char} {address : IpAddr}
    (parsed : parse text = some address) : ∀ character ∈ text, Hexadecimal character := by
  cases address with
  | v4 octets => exact fun character member => (parse_v4 parsed character member).hexadecimal
  | v6 octets => exact (parse_v6 parsed).1

theorem IpAddr.parse_ne_nil {text : List Char} {address : IpAddr}
    (parsed : parse text = some address) : text ≠ [] := by
  rintro rfl
  have nothing : parse [] = none := by decide
  cases nothing.symm.trans parsed

end Consumes

/-- The characters stand for a digit, or separate. -/
theorem Hexadecimal.range {character : Char} (hexadecimal : Hexadecimal character) :
    46 ≤ character.toNat ∧ character.toNat ≤ 58 ∨ 65 ≤ character.toNat ∧ character.toNat ≤ 70 ∨
      97 ≤ character.toNat ∧ character.toNat ≤ 102 := by
  obtain digit | rfl | rfl := hexadecimal
  · obtain ⟨value, found⟩ := Option.isSome_iff_exists.mp digit
    obtain ⟨found, _⟩ := Option.filter_eq_some_iff.mp found
    split at found
    next within =>
      have low : '0'.toNat ≤ character.toNat := within.1
      have high : character.toNat ≤ '9'.toNat := within.2
      exact .inl ⟨le_trans (by decide) low, le_trans high (by decide)⟩
    next =>
      split at found
      next within =>
        have low : 'a'.toNat ≤ character.toNat := within.1
        have high : character.toNat ≤ 'f'.toNat := within.2
        exact .inr (.inr ⟨low, high⟩)
      next =>
        split at found
        next within =>
          have low : 'A'.toNat ≤ character.toNat := within.1
          have high : character.toNat ≤ 'F'.toNat := within.2
          exact .inr (.inl ⟨low, high⟩)
        next => cases found
  · decide
  · decide

theorem Decimal.not_colon : ¬ Decimal ':' := by
  rintro (digit | dot)
  · exact absurd digit (by decide)
  · exact absurd dot (by decide)

/-- How the runtime resolved a request's address. -/
inductive ClientIdentity
  | directPeer (address : IpAddr)
  | viaTrustedProxy (client proxy : IpAddr)
  deriving DecidableEq

def ClientIdentity.address : ClientIdentity → IpAddr
  | directPeer address => address
  | viaTrustedProxy client _ => client

end Renvor
