import Mathlib.Algebra.Order.Ring.Nat
import Mathlib.Data.List.Induction
import Mathlib.Tactic.Common
import Mathlib.Tactic.Ring

/-! # Numbers as bytes, the largest first -/

namespace Foundation.BigEndian

/-- The lowest byte of a number is a byte. -/
theorem low_lt (number : Nat) : number % 256 < 256 := Nat.mod_lt number (by decide)

/-- A number as so many bytes. -/
def bytes : Nat → Nat → List (Fin 256)
  | 0, _ => []
  | width + 1, number => bytes width (number / 256) ++ [⟨number % 256, low_lt number⟩]

/-- The number that bytes are. -/
def number (bytes : List (Fin 256)) : Nat :=
  bytes.foldl (fun read byte => read * 256 + byte.val) 0

/-- A byte behind the others counts once, and they count two hundred and fifty-six times as much. -/
theorem number_concat (front : List (Fin 256)) (last : Fin 256) :
    number (front ++ [last]) = number front * 256 + last.val := by
  simp [number]

/-- A number is written with as many bytes as are asked for. -/
@[simp] theorem length_bytes (width number : Nat) : (bytes width number).length = width := by
  induction width generalizing number with
  | zero => rfl
  | succ width ih => simp [bytes, ih]

/-- **Bytes are read back.** -/
theorem number_bytes {width value : Nat} (fits : value < 256 ^ width) :
    number (bytes width value) = value := by
  induction width generalizing value with
  | zero =>
      rw [Nat.pow_zero] at fits
      exact (Nat.lt_one_iff.mp fits).symm
  | succ width ih =>
      rw [bytes, number_concat, ih (Nat.div_lt_of_lt_mul (by rwa [← Nat.pow_succ'] ))]
      dsimp only
      omega

/-- A number of so many bytes is below the power of two hundred and fifty-six. -/
theorem number_lt (front : List (Fin 256)) : number front < 256 ^ front.length := by
  induction front using List.reverseRecOn with
  | nil => exact Nat.one_pos
  | append_singleton front last ih =>
      rw [number_concat, List.length_append, List.length_singleton, Nat.pow_succ]
      omega

/-- **Bytes are the bytes of their number.** -/
theorem bytes_number (front : List (Fin 256)) : bytes front.length (number front) = front := by
  induction front using List.reverseRecOn with
  | nil => rfl
  | append_singleton front last ih =>
      rw [List.length_append, List.length_singleton, number_concat]
      unfold bytes
      have quotient : (number front * 256 + last.val) / 256 = number front := by omega
      rw [quotient, ih]
      congr 2
      apply Fin.ext
      dsimp only
      omega

/-! ## Reading -/

/-- So many bytes off the front, where there are as many. -/
def cut {Item : Type*} (count : Nat) (items : List Item) : Option (List Item × List Item) :=
  if items.length < count then none else some (items.take count, items.drop count)

/-- A cut succeeds where there are enough items, and loses none of them. -/
theorem cut_some {Item : Type*} {count : Nat} {items front rest : List Item} :
    cut count items = some (front, rest) ↔ front.length = count ∧ items = front ++ rest := by
  unfold cut
  constructor
  · intro parts
    split at parts
    next => cases parts
    next enough =>
      cases parts
      exact ⟨by rw [List.length_take]; omega, (List.take_append_drop count items).symm⟩
  · rintro ⟨rfl, rfl⟩
    rw [if_neg (by simp), List.take_left' rfl, List.drop_left' rfl]

/-- A number off the front. -/
def read (width : Nat) (bytes : List (Fin 256)) : Option (Nat × List (Fin 256)) :=
  (cut width bytes).map fun parts => (number parts.1, parts.2)

/-- A number is read from exactly the bytes that it would be written with. -/
theorem read_some {width value : Nat} {front rest : List (Fin 256)} :
    read width front = some (value, rest) ↔
      value < 256 ^ width ∧ front = bytes width value ++ rest := by
  unfold read
  rw [Option.map_eq_some_iff]
  constructor
  · rintro ⟨⟨head, tail⟩, parts, same⟩
    cases same
    obtain ⟨rfl, rfl⟩ := cut_some.mp parts
    exact ⟨number_lt head, by rw [bytes_number]⟩
  · rintro ⟨fits, rfl⟩
    exact ⟨(bytes width value, rest), cut_some.mpr ⟨length_bytes width value, rfl⟩,
      Prod.ext (number_bytes fits) rfl⟩

end Foundation.BigEndian
