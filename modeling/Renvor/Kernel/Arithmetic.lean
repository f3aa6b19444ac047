import Mathlib.Algebra.GroupWithZero.Nat
import Mathlib.Order.Lattice

/-! # Saturating arithmetic on thirty-two bits -/

namespace Renvor

/-- The largest `u32`. -/
def u32Max : Nat := 2 ^ 32 - 1

/-- A count as `u32`, or the largest one where it does not fit. -/
def clampU32 (count : Nat) : Nat := min count u32Max

/-- Addition on `u32` that stops at the largest value. -/
def saturatingAdd (first second : Nat) : Nat := min (first + second) u32Max

/-- Multiplication on `u32` that stops at the largest value. -/
def saturatingMul (first second : Nat) : Nat := min (first * second) u32Max

theorem saturatingAdd_clamp (first second : Nat) :
    saturatingAdd (clampU32 first) (clampU32 second) = clampU32 (first + second) := by
  simp only [saturatingAdd, clampU32]
  omega

/-- Clamping shows on which side of a small ceiling a count is. -/
theorem lt_clampU32 {ceiling count : Nat} (small : ceiling < u32Max) :
    ceiling < clampU32 count ↔ ceiling < count := by
  simp only [clampU32]
  omega

/-- The largest number of an integer column. -/
def i32Max : Int := 2147483647

end Renvor
