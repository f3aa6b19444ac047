import Renvor.Auth.Opaque

/-! # Identifiers and digests read back from their columns -/

namespace Renvor

/-- The identifier of a user. -/
abbrev UserId := Sixteen

/-- Reads sixteen bytes back from their column. -/
def sixteenFrom (bytes : List Byte) : Except DatabaseErrorKind Sixteen :=
  if sized : bytes.length = 16 then .ok ⟨bytes, sized⟩ else .error .statementRejected

/-- The identifier of a user read from its column. -/
def userIdFrom : List Byte → Except DatabaseErrorKind UserId := sixteenFrom

/-- The digest of a secret read from its column, which is refused at any other length. -/
def digestFrom (bytes : List Byte) : Except DatabaseErrorKind SecretDigest :=
  if sized : bytes.length = 32 then .ok ⟨bytes, sized⟩ else .error .statementRejected

/-- Sixteen bytes the store draws itself, or its refusal. -/
def randBytes : Option Sixteen → Except DatabaseErrorKind Sixteen
  | some bytes => .ok bytes
  | none => .error .statementRejected

/-- An identifier that was read has just the bytes of its column. -/
theorem sixteenFrom_ok {bytes : List Byte} {identifier : Sixteen}
    (read : sixteenFrom bytes = .ok identifier) : identifier.bytes = bytes := by
  unfold sixteenFrom at read
  split at read
  · cases read
    rfl
  · cases read

/-- What was written reads back. -/
@[simp] theorem userIdFrom_bytes (user : UserId) : userIdFrom user.bytes = .ok user := by
  unfold userIdFrom sixteenFrom
  rw [dif_pos user.width]

/-- A digest that was written is read back. -/
@[simp] theorem digestFrom_bytes (digest : SecretDigest) : digestFrom digest.bytes = .ok digest := by
  unfold digestFrom
  rw [dif_pos digest.width]

end Renvor
