import Renvor.Foundation.Base64
import Renvor.Kernel.Entropy
import Renvor.Kernel.Text

/-! # Page cursors

A cursor is a version byte and a position, in URL-safe text. A text is decoded only
where it is the encoding of what is decoded (`Renvor.Cursor.decode_ok`).
-/

namespace Renvor

open Foundation

/-- The symbols of URL-safe base 64. -/
def urlSafeSymbol (sextet : Nat) : Char :=
  if sextet < 26 then Char.ofNat ('A'.toNat + sextet)
  else if sextet < 52 then Char.ofNat ('a'.toNat + (sextet - 26))
  else if sextet < 62 then Char.ofNat ('0'.toNat + (sextet - 52))
  else if sextet = 62 then '-' else '_'

/-- What a symbol of the alphabet stands for; the two beside letters and digits are safe in an
address. -/
def urlSafeValue (character : Char) : Option Nat :=
  if 'A' ≤ character ∧ character ≤ 'Z' then some (character.toNat - 'A'.toNat)
  else if 'a' ≤ character ∧ character ≤ 'z' then some (character.toNat - 'a'.toNat + 26)
  else if '0' ≤ character ∧ character ≤ '9' then some (character.toNat - '0'.toNat + 52)
  else if character = '-' then some 62 else if character = '_' then some 63 else none

/-- A character between two others has its code between theirs. -/
theorem toNat_range {low high character : Char} (within : low ≤ character ∧ character ≤ high) :
    low.toNat ≤ character.toNat ∧ character.toNat ≤ high.toNat :=
  ⟨UInt32.le_iff_toNat_le.mp within.1, UInt32.le_iff_toNat_le.mp within.2⟩

/-- A symbol is the character it was read from. -/
theorem urlSafeSymbol_value {character : Char} {sextet : Nat}
    (read : urlSafeValue character = some sextet) :
    sextet < 64 ∧ urlSafeSymbol sextet = character := by
  have named : ∀ base, base ≤ character.toNat →
      Char.ofNat (base + (character.toNat - base)) = character := by
    intro base below
    rw [Nat.add_sub_cancel' below]
    exact Char.ofNat_toNat character
  unfold urlSafeValue at read
  unfold urlSafeSymbol
  split at read
  next within =>
    have range := toNat_range within
    cases read
    rw [if_pos (by simp at range ⊢; omega), named _ range.1]
    exact ⟨by simp at range ⊢; omega, rfl⟩
  next =>
    split at read
    next within =>
      have range := toNat_range within
      cases read
      rw [if_neg (by omega), if_pos (by simp at range ⊢; omega), Nat.add_sub_cancel, named _ range.1]
      exact ⟨by simp at range ⊢; omega, rfl⟩
    next =>
      split at read
      next within =>
        have range := toNat_range within
        cases read
        rw [if_neg (by omega), if_neg (by omega), if_pos (by simp at range ⊢; omega),
          Nat.add_sub_cancel, named _ range.1]
        exact ⟨by simp at range ⊢; omega, rfl⟩
      next =>
        split at read
        next same =>
          cases read
          exact ⟨by decide, same ▸ rfl⟩
        next =>
          split at read
          next same =>
            cases read
            exact ⟨by decide, same ▸ rfl⟩
          next => cases read

/-- The engine `URL_SAFE_NO_PAD`. -/
def urlSafe : Base64.Alphabet where
  symbol := urlSafeSymbol
  value := urlSafeValue
  value_symbol := by decide
  symbol_value _ _ := urlSafeSymbol_value

/-- Each symbol of the alphabet is one byte long. -/
theorem utf8Size_urlSafe : ∀ sextet < 64, (urlSafeSymbol sextet).utf8Size = 1 := by decide

/-- The version that is written in front of every position. -/
def cursorVersion : Byte := 1

/-- The most bytes of a text that is decoded at all. -/
def maxCursorBytes : Nat := 1024

/-- Why a text is no cursor. One of another version is told apart from one that cannot be read. -/
inductive CursorError
  | invalid
  | unsupportedVersion (declared : Byte)
  | tooLong (length limit : Nat)
  deriving DecidableEq

/-- A position in a total ordering. -/
structure Cursor where
  position : List Byte
  deriving DecidableEq

namespace Cursor

/-- The text of a cursor: its version and its position, encoded without padding. -/
def encode (cursor : Cursor) : String :=
  String.ofList (Base64.encode urlSafe (cursorVersion :: cursor.position))

/-- The cursor of a text. The length is checked before anything is decoded. -/
def decode (text : String) : Except CursorError Cursor :=
  if maxCursorBytes < text.utf8ByteSize then .error (.tooLong text.utf8ByteSize maxCursorBytes)
  else
    match Base64.decode urlSafe text.toList with
    | none => .error .invalid
    | some [] => .error .invalid
    | some (declared :: position) =>
        if declared = cursorVersion then .ok ⟨position⟩ else .error (.unsupportedVersion declared)

/-- How long the text of a cursor is depends on the length of its position alone. -/
theorem utf8ByteSize_encode (cursor : Cursor) :
    cursor.encode.utf8ByteSize = ((cursor.position.length + 1) * 4 + 2) / 3 := by
  rw [encode, utf8ByteSize_ofList, Base64.length_encode, List.length_cons]
  intro character member
  obtain ⟨sextet, small, rfl⟩ := Base64.mem_encode urlSafe member
  exact utf8Size_urlSafe sextet small

/-- **A text is decoded exactly where it is a short enough encoding.** -/
theorem decode_ok {text : String} {cursor : Cursor} :
    decode text = .ok cursor ↔ text = cursor.encode ∧ text.utf8ByteSize ≤ maxCursorBytes := by
  unfold decode
  by_cases long : maxCursorBytes < text.utf8ByteSize
  · rw [if_pos long]
    exact iff_of_false (by simp) fun both => Nat.not_lt.mpr both.2 long
  rw [if_neg long]
  constructor
  · intro decoded
    refine ⟨?_, Nat.le_of_not_lt long⟩
    split at decoded
    next => cases decoded
    next => cases decoded
    next declared position read =>
      split at decoded
      next version =>
        cases decoded
        rw [encode, ← version, Base64.encode_decode urlSafe read, String.ofList_toList]
      next => cases decoded
  · rintro ⟨rfl, _⟩
    rw [encode, String.toList_ofList, Base64.decode_encode]
    exact if_pos rfl

end Cursor

end Renvor
