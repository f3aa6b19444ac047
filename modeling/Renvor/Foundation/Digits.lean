import Mathlib.Data.Nat.Digits.Lemmas

/-! # Decimal digits

A number is written with at least some digits, zeros before it; what is written is
read back as the number (`Foundation.Digits.number_padded`).
-/

namespace Foundation.Digits

/-- The character of a digit. -/
def character (digit : Nat) : Char := Char.ofNat ('0'.toNat + digit)

def value (character : Char) : Nat := character.toNat - '0'.toNat

def isDigit (character : Char) : Bool := '0' ≤ character && character ≤ '9'

/-- The number that digits write. -/
def number (text : List Char) : Nat := text.foldl (fun read digit => read * 10 + value digit) 0

/-- A number with at least some digits. -/
def padded (width number : Nat) : List Char :=
  (Nat.digits 10 number ++
    List.replicate (width - (Nat.digits 10 number).length) 0).reverse.map character

theorem character_digit {digit : Nat} (small : digit < 10) :
    value (character digit) = digit ∧ isDigit (character digit) = true := by
  interval_cases digit <;> decide

theorem number_concat (text : List Char) (digit : Char) :
    number (text ++ [digit]) = number text * 10 + value digit := by
  simp [number]

theorem number_append (front back : List Char) :
    number (front ++ back) = number front * 10 ^ back.length + number back := by
  induction back using List.reverseRecOn with
  | nil => simp [number]
  | append_singleton back digit ih =>
      rw [← List.append_assoc, number_concat, ih, number_concat, List.length_append,
        List.length_singleton, pow_succ]
      ring

/-- Digits are read as the number they are the digits of. -/
theorem number_reverse {digits : List Nat} (small : ∀ digit ∈ digits, digit < 10) :
    number (digits.reverse.map character) = Nat.ofDigits 10 digits := by
  induction digits with
  | nil => rfl
  | cons digit rest ih =>
      rw [List.reverse_cons, List.map_append, List.map_singleton, number_concat,
        ih fun other member => small other (List.mem_cons_of_mem digit member),
        (character_digit (small digit List.mem_cons_self)).1, Nat.ofDigits_cons]
      ring

theorem small_padded (width number : Nat) :
    ∀ digit ∈ Nat.digits 10 number ++
      List.replicate (width - (Nat.digits 10 number).length) 0, digit < 10 := by
  intro digit member
  rcases List.mem_append.mp member with own | zero
  · exact Nat.digits_lt_base (by decide) own
  · rw [List.eq_of_mem_replicate zero]
    decide

/-- **What is written is read back.** -/
theorem number_padded (width number : Nat) : Digits.number (padded width number) = number := by
  rw [padded, number_reverse (small_padded width number), Nat.ofDigits_append_replicate_zero,
    Nat.ofDigits_digits]

theorem isDigit_padded {width number : Nat} {character : Char}
    (member : character ∈ padded width number) : isDigit character = true := by
  obtain ⟨digit, written, rfl⟩ := List.mem_map.mp member
  exact (character_digit (small_padded width number digit (List.mem_reverse.mp written))).2

theorem length_padded {width number : Nat} (fits : number < 10 ^ width) :
    (padded width number).length = width := by
  have short := (Nat.digits_length_le_iff (by decide) number).mpr fits
  simp only [padded, List.length_map, List.length_reverse, List.length_append,
    List.length_replicate]
  omega

/-- A number's last digits, as many as a width. -/
def fixed : Nat → Nat → List Char
  | 0, _ => []
  | width + 1, number => fixed width (number / 10) ++ [character (number % 10)]

theorem padded_succ (width number : Nat) :
    padded (width + 1) number = padded width (number / 10) ++ [character (number % 10)] := by
  by_cases none : number = 0
  · subst none
    simp [padded, ← List.replicate_succ, List.replicate_succ']
  · have digits := Nat.digits_def' (show 1 < 10 by decide) (Nat.pos_of_ne_zero none)
    simp only [padded, digits, List.length_cons, Nat.add_sub_add_right, List.cons_append,
      List.reverse_cons, List.map_append, List.map_cons, List.map_nil]

/-- A number that fits a width has its digits alone. -/
theorem padded_fixed {width number : Nat} (fits : number < 10 ^ width) :
    padded width number = fixed width number := by
  induction width generalizing number with
  | zero =>
      rw [pow_zero, Nat.lt_one_iff] at fits
      subst fits
      rfl
  | succ width ih => rw [padded_succ, fixed, ih (by rw [pow_succ] at fits; omega)]

theorem number_cons (digit : Char) (rest : List Char) :
    number (digit :: rest) = value digit * 10 ^ rest.length + number rest := by
  rw [← List.singleton_append, number_append]
  simp [number]

theorem value_of_digit {digit : Char} (is : isDigit digit = true) : value digit < 10 := by
  simp only [isDigit, Bool.and_eq_true, decide_eq_true_eq] at is
  have upto : digit.toNat ≤ '9'.toNat := is.2
  have nine : '9'.toNat = 57 := rfl
  have zero : '0'.toNat = 48 := rfl
  unfold value
  omega

theorem number_lt {text : List Char} (digits : ∀ digit ∈ text, isDigit digit = true) :
    number text < 10 ^ text.length := by
  induction text with
  | nil => decide
  | cons digit rest ih =>
      have small := value_of_digit (digits digit List.mem_cons_self)
      have below := ih fun other member => digits other (List.mem_cons_of_mem _ member)
      rw [number_cons, List.length_cons, pow_succ]
      have room : (value digit + 1) * 10 ^ rest.length ≤ 10 * 10 ^ rest.length :=
        Nat.mul_le_mul_right _ small
      rw [Nat.add_mul, Nat.one_mul] at room
      omega

/-- **Texts of as many digits stand in the order of their numbers.** -/
theorem lt_of_number_lt {text other : List Char} (same : text.length = other.length)
    (digits : ∀ digit ∈ text, isDigit digit = true)
    (digits' : ∀ digit ∈ other, isDigit digit = true) (less : number text < number other) :
    text < other := by
  induction text generalizing other with
  | nil =>
      rw [List.eq_nil_of_length_eq_zero same.symm] at less
      exact absurd less (Nat.lt_irrefl _)
  | cons digit rest ih =>
      obtain ⟨digit', rest', rfl⟩ := List.exists_cons_of_length_pos (l := other) (by
        rw [← same]
        exact Nat.succ_pos _)
      have lengths : rest.length = rest'.length := Nat.succ.inj same
      have tail := fun char member => digits char (List.mem_cons_of_mem _ member)
      have tail' := fun char member => digits' char (List.mem_cons_of_mem _ member)
      rw [number_cons, number_cons, lengths] at less
      have below := lengths ▸ number_lt tail
      have below' := number_lt tail'
      rw [List.cons_lt_cons_iff]
      rcases Nat.lt_trichotomy digit.toNat digit'.toNat with lower | equal | higher
      · exact .inl lower
      · have equal : digit = digit' := Char.toNat_inj.mp equal
        subst equal
        exact .inr ⟨rfl, ih lengths tail tail' (by omega)⟩
      · have own := digits' digit' List.mem_cons_self
        simp only [isDigit, Bool.and_eq_true, decide_eq_true_eq] at own
        have from_ : '0'.toNat ≤ digit'.toNat := own.1
        have values : value digit' + 1 ≤ value digit := by
          unfold value
          omega
        have room := Nat.mul_le_mul_right (10 ^ rest'.length) values
        rw [Nat.add_mul, Nat.one_mul] at room
        omega

theorem padded_ne_nil {width number : Nat} (some : 0 < width) : padded width number ≠ [] := by
  intro none
  have length := congrArg List.length none
  simp only [padded, List.length_map, List.length_reverse, List.length_append,
    List.length_replicate, List.length_nil] at length
  omega

end Foundation.Digits
