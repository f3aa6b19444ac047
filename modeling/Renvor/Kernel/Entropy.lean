import Mathlib.Data.Fin.Basic
import Mathlib.Data.Int.Order.Basic
import Mathlib.Data.List.Lex
import Mathlib.Data.Prod.Lex
import Mathlib.Order.Fin.Basic
import Mathlib.Order.Lattice

/-! # Instants, and bytes from the entropy source -/

namespace Renvor

/-- Microseconds from the epoch. -/
abbrev Instant := Int

/-- Instants are ordered as integers, computably. -/
instance : LinearOrder Instant := Int.instLinearOrder

instance : Preorder Instant := Int.instLinearOrder.toPreorder

/-- A byte. -/
abbrev Byte := Fin 256

instance Byte.inhabited : @NeZero Nat Zero.ofOfNat0 256 := ⟨Nat.succ_ne_zero 255⟩

/-- The byte of eight zeros. -/
def Byte.zero : Byte := 0

/-- Sixteen bytes drawn from the entropy source. -/
structure Sixteen where
  bytes : List Byte
  width : bytes.length = 16
  deriving DecidableEq

instance : LinearOrder Sixteen :=
  LinearOrder.lift' Sixteen.bytes fun left right same => by
    cases left
    cases right
    cases same
    rfl

/-- An identifier is its bytes. -/
@[simp] theorem Sixteen.bytes_inj {left right : Sixteen} :
    left.bytes = right.bytes ↔ left = right :=
  ⟨fun same => by cases left; cases right; cases same; rfl, congrArg Sixteen.bytes⟩

/-- What an entropy source gives, draw by draw; none where it fails. -/
abbrev Entropy := Nat → Option Sixteen

/-- The source never gives the same sixteen bytes twice. -/
def Entropy.Fresh (entropy : Entropy) : Prop :=
  ∀ first second bytes, entropy first = some bytes → entropy second = some bytes →
    first = second

/-- The source gave these bytes among its first draws. -/
def Entropy.Issued (entropy : Entropy) (drawn : Nat) (bytes : Sixteen) : Prop :=
  ∃ draw < drawn, entropy draw = some bytes

namespace Entropy

variable {entropy : Entropy} {drawn : Nat} {bytes : Sixteen}

/-- What was drawn stays drawn as more is. -/
theorem Issued.mono {more : Nat} (issued : entropy.Issued drawn bytes) (le : drawn ≤ more) :
    entropy.Issued more bytes := by
  obtain ⟨draw, before, given⟩ := issued
  exact ⟨draw, before.trans_le le, given⟩

/-- What the next drawing gives is drawn after it. -/
theorem issued_next (given : entropy drawn = some bytes) : entropy.Issued (drawn + 1) bytes :=
  ⟨drawn, Nat.lt_succ_self drawn, given⟩

/-- A new draw was not issued before. -/
theorem Fresh.unissued (fresh : entropy.Fresh) (given : entropy drawn = some bytes) :
    ¬ entropy.Issued drawn bytes := by
  rintro ⟨draw, before, again⟩
  exact before.ne (fresh draw drawn bytes again given)

end Entropy

/-- The identifier that begins with a byte and is zero behind it. -/
def Sixteen.counted (first : Byte) : Sixteen := ⟨first :: List.replicate 15 0, rfl⟩

/-- A source that counts, until one byte is used up. -/
def Entropy.counting : Entropy := fun draw =>
  if below : draw < 256 then some (.counted ⟨draw, below⟩) else none

/-- A source that counts gives no two drawings the same bytes. -/
theorem Entropy.counting_fresh : counting.Fresh := by
  intro first second bytes given again
  simp only [counting] at given again
  split at given
  · split at again
    · have same := (Option.some.inj given).trans (Option.some.inj again).symm
      simpa [Sixteen.counted] using same
    · cases again
  · cases given

end Renvor
