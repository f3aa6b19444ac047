import Mathlib.Tactic.Common
import Renvor.Auth.Error
import Renvor.Kernel.Entropy

/-! # Generated secrets, and the digests stored in their place

A secret travels as lowercase hexadecimal digits. The digest binds its kind; the
hash itself is a parameter.
-/

namespace Renvor

/-- The value of a lowercase hexadecimal digit. -/
def hexValue (character : Char) : Option (Fin 16) :=
  if '0' ≤ character ∧ character ≤ '9' then Fin.ofNat 16 (character.toNat - '0'.toNat)
  else if 'a' ≤ character ∧ character ≤ 'f' then
    Fin.ofNat 16 (character.toNat - 'a'.toNat + 10)
  else none

def hexDigit (nibble : Fin 16) : Char := Nat.digitChar nibble

/-- A byte as two digits. -/
def Byte.hex (byte : Byte) : List Char :=
  [hexDigit (Fin.ofNat 16 (byte.val / 16)), hexDigit (Fin.ofNat 16 (byte.val % 16))]

/-- The bytes two digits at a time. -/
def hexBytes : List Char → Option (List Byte)
  | high :: low :: rest => do
      let high ← hexValue high
      let low ← hexValue low
      let bytes ← hexBytes rest
      return Fin.ofNat 256 (high.val * 16 + low.val) :: bytes
  | _ => some []

/-- Sixteen bytes, rendered. -/
def Sixteen.hex (identifier : Sixteen) : String :=
  String.ofList (identifier.bytes.flatMap Byte.hex)

/-- What a credential is for. -/
inductive OpaqueKind
  | session | verification | passwordReset | refresh

def OpaqueKind.byte : OpaqueKind → Byte
  | session => 0
  | verification => 1
  | passwordReset => 2
  | refresh => 3

def Opaque.width : Nat := 32

/-- A generated credential secret. -/
structure Opaque where
  kind : OpaqueKind
  bytes : List Byte
  wide : bytes.length = Opaque.width

/-- What the entropy source gave a draw, or its refusal. -/
def drawn {Drawn : Type} : Option Drawn → Except AuthError Drawn
  | some value => .ok value
  | none => .error .entropyUnavailable

namespace Opaque

/-- The one place a credential is generated, from drawn bytes and nothing else. -/
def generate (kind : OpaqueKind) (draw : Option { bytes : List Byte // bytes.length = width }) :
    Except AuthError Opaque := do
  let secret ← drawn draw
  return ⟨kind, secret.val, secret.property⟩

/-- Rebuilds a credential a caller presented. -/
def fromWire (kind : OpaqueKind) (wire : String) : Option Opaque :=
  if wire.utf8ByteSize ≠ width * 2 then none
  else do
    let bytes ← hexBytes wire.toList
    if wide : bytes.length = width then some ⟨kind, bytes, wide⟩ else none

/-- The wire form. -/
def expose (secret : Opaque) : String := String.ofList (secret.bytes.flatMap Byte.hex)

end Opaque

/-- The digest of a secret: thirty-two bytes. -/
structure SecretDigest where
  bytes : List Byte
  width : bytes.length = 32
  deriving DecidableEq

/-- A hash of byte strings. -/
abbrev Sha256 := List Byte → SecretDigest

/-- The digest of a credential, its kind bound in. -/
def SecretDigest.of (hash : Sha256) (secret : Opaque) : SecretDigest :=
  hash (secret.kind.byte :: secret.bytes)

@[simp] theorem hexValue_hexDigit (nibble : Fin 16) : hexValue (hexDigit nibble) = some nibble := by
  revert nibble
  decide

theorem hexDigit_utf8Size (nibble : Fin 16) : (hexDigit nibble).utf8Size = 1 := by
  revert nibble
  decide

/-- Rendered bytes read back. -/
theorem hexBytes_hex (bytes : List Byte) : hexBytes (bytes.flatMap Byte.hex) = some bytes := by
  induction bytes with
  | nil => rfl
  | cons byte bytes ih =>
      have whole : Fin.ofNat 256 ((Fin.ofNat 16 (byte.val / 16)).val * 16 +
          (Fin.ofNat 16 (byte.val % 16)).val) = byte := by
        apply Fin.ext
        simp only [Fin.val_ofNat]
        omega
      simp only [List.flatMap_cons, Byte.hex, List.cons_append, List.nil_append, hexBytes,
        hexValue_hexDigit, ih, Option.bind_eq_bind, Option.bind_some, Option.pure_def, whole]

theorem hex_utf8Len (bytes : List Byte) :
    String.utf8ByteSize (String.ofList (bytes.flatMap Byte.hex)) = bytes.length * 2 := by
  induction bytes with
  | nil => rfl
  | cons byte bytes ih =>
      rw [List.flatMap_cons, String.ofList_append, String.utf8ByteSize_append, ih]
      simp [Byte.hex, hexDigit_utf8Size]
      omega

/-- **A rendered credential reads back.** -/
theorem Opaque.fromWire_expose (secret : Opaque) :
    fromWire secret.kind secret.expose = some secret := by
  unfold fromWire expose
  rw [hex_utf8Len, secret.wide, if_neg (by simp), String.toList_ofList, hexBytes_hex]
  simp [secret.wide]

/-- A presented credential is of the kind it is presented for. -/
theorem Opaque.fromWire_kind {kind : OpaqueKind} {wire : String} {secret : Opaque}
    (read : fromWire kind wire = some secret) : secret.kind = kind := by
  unfold fromWire at read
  split at read
  · cases read
  · obtain ⟨bytes, _, sized⟩ := Option.bind_eq_some_iff.mp read
    split at sized
    · cases sized
      rfl
    · cases sized

end Renvor
