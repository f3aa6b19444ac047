import Mathlib.Tactic.Common

/-! # Base 64 without padding

Three bytes are four symbols; one or two bytes at the end are two or three, the bits
left over zero. Decoding gives back what was encoded, and nothing but the encoding of
what it gives is decoded (`Foundation.Base64.encode_decode`).

The encoding is defined here, and is no parameter although a program has it from a library:
the format fixes every symbol once the alphabet is given, and a decoder that takes canonical
texts only has no choice left. What is proved of a program's texts is about the symbols
themselves, their number and their alphabet, which hypotheses would have to spell out as
fully as these definitions do. The alphabet alone is left open.
-/

namespace Foundation.Base64

/-- Sixty-four symbols and what they stand for. -/
structure Alphabet where
  symbol : Nat → Char
  value : Char → Option Nat
  value_symbol : ∀ sextet < 64, value (symbol sextet) = some sextet
  symbol_value : ∀ character sextet, value character = some sextet →
    sextet < 64 ∧ symbol sextet = character

/-- A number as a byte, which it is where it is small enough. -/
def byte (number : Nat) : Fin 256 := Fin.ofNat 256 number

/-- A number below two hundred and fifty-six is the byte made of it. -/
theorem val_byte {number : Nat} (small : number < 256) : (byte number).val = number :=
  Nat.mod_eq_of_lt small

variable (alphabet : Alphabet)

/-- Three bytes as four symbols, and what remains at the end as two symbols or three. -/
def encode : List (Fin 256) → List Char
  | [] => []
  | [first] => [alphabet.symbol (first / 4), alphabet.symbol (first % 4 * 16)]
  | [first, second] =>
      [alphabet.symbol (first / 4), alphabet.symbol (first % 4 * 16 + second / 16),
        alphabet.symbol (second % 16 * 4)]
  | first :: second :: third :: rest =>
      alphabet.symbol (first / 4) :: alphabet.symbol (first % 4 * 16 + second / 16) ::
        alphabet.symbol (second % 16 * 4 + third / 64) :: alphabet.symbol (third % 64) ::
        encode rest

/-- Four symbols as three bytes. A text that ends in one symbol, or whose last bits are not zero,
is refused. -/
def decode : List Char → Option (List (Fin 256))
  | [] => some []
  | [_] => none
  | [first, second] => do
      let w ← alphabet.value first
      let x ← alphabet.value second
      if x % 16 = 0 then some [byte (w * 4 + x / 16)] else none
  | [first, second, third] => do
      let w ← alphabet.value first
      let x ← alphabet.value second
      let y ← alphabet.value third
      if y % 4 = 0 then some [byte (w * 4 + x / 16), byte (x % 16 * 16 + y / 4)] else none
  | first :: second :: third :: fourth :: rest => do
      let w ← alphabet.value first
      let x ← alphabet.value second
      let y ← alphabet.value third
      let z ← alphabet.value fourth
      let others ← decode rest
      some (byte (w * 4 + x / 16) :: byte (x % 16 * 16 + y / 4) :: byte (y % 4 * 64 + z) :: others)

/-- The first, second and third byte of a group, from its sextets. -/
theorem byte_first (first : Fin 256) {low : Nat} (bits : low < 16) :
    byte (first / 4 * 4 + (first % 4 * 16 + low) / 16) = first := by
  apply Fin.ext
  rw [val_byte] <;> omega

/-- The second byte of a group comes back from its second and third symbols. -/
theorem byte_second (first : Nat) (second : Fin 256) {low : Nat} (bits : low < 4) :
    byte ((first % 4 * 16 + second / 16) % 16 * 16 + (second % 16 * 4 + low) / 4) = second := by
  apply Fin.ext
  rw [val_byte] <;> omega

/-- The third byte of a group comes back from its third and fourth symbols. -/
theorem byte_third (second : Nat) (third : Fin 256) :
    byte ((second % 16 * 4 + third / 64) % 4 * 64 + third % 64) = third := by
  apply Fin.ext
  rw [val_byte] <;> omega

/-- **What is encoded is decoded.** -/
theorem decode_encode (bytes : List (Fin 256)) :
    decode alphabet (encode alphabet bytes) = some bytes := by
  induction bytes using encode.induct with
  | case1 => rfl
  | case2 first =>
      have one := @byte_first first 0 (by decide)
      rw [Nat.add_zero] at one
      simp only [encode, decode, Option.bind_eq_bind]
      rw [alphabet.value_symbol _ (by omega), alphabet.value_symbol _ (by omega),
        Option.bind_some, Option.bind_some, if_pos (Nat.mul_mod_left _ _), one]
  | case3 first second =>
      have two := @byte_second first second 0 (by decide)
      rw [Nat.add_zero] at two
      simp only [encode, decode, Option.bind_eq_bind]
      rw [alphabet.value_symbol _ (by omega), alphabet.value_symbol _ (by omega),
        alphabet.value_symbol _ (by omega), Option.bind_some, Option.bind_some, Option.bind_some,
        if_pos (Nat.mul_mod_left _ _), byte_first first (by omega), two]
  | case4 first second third rest ih =>
      simp only [encode, decode, Option.bind_eq_bind]
      rw [alphabet.value_symbol _ (by omega), alphabet.value_symbol _ (by omega),
        alphabet.value_symbol _ (by omega), alphabet.value_symbol _ (by omega), ih,
        Option.bind_some, Option.bind_some, Option.bind_some, Option.bind_some, Option.bind_some,
        byte_first first (by omega), byte_second first second (by omega), byte_third second third]

/-- **Only an encoding is decoded.** -/
theorem encode_decode {text : List Char} {bytes : List (Fin 256)}
    (decoded : decode alphabet text = some bytes) : encode alphabet bytes = text := by
  induction text using decode.induct generalizing bytes with
  | case1 =>
      cases decoded
      rfl
  | case2 => cases decoded
  | case3 first second =>
      simp only [decode, Option.bind_eq_bind, Option.bind_eq_some_iff] at decoded
      obtain ⟨w, hw, x, hx, decoded⟩ := decoded
      obtain ⟨small, rfl⟩ := alphabet.symbol_value _ _ hw
      obtain ⟨few, rfl⟩ := alphabet.symbol_value _ _ hx
      split at decoded
      next none =>
        cases decoded
        have one : (w * 4 + x / 16) / 4 = w := by omega
        have two : (w * 4 + x / 16) % 4 * 16 = x := by omega
        rw [encode, val_byte (by omega), one, two]
      next => cases decoded
  | case4 first second third =>
      simp only [decode, Option.bind_eq_bind, Option.bind_eq_some_iff] at decoded
      obtain ⟨w, hw, x, hx, y, hy, decoded⟩ := decoded
      obtain ⟨small, rfl⟩ := alphabet.symbol_value _ _ hw
      obtain ⟨few, rfl⟩ := alphabet.symbol_value _ _ hx
      obtain ⟨less, rfl⟩ := alphabet.symbol_value _ _ hy
      split at decoded
      next none =>
        cases decoded
        have one : (w * 4 + x / 16) / 4 = w := by omega
        have two : (w * 4 + x / 16) % 4 * 16 + (x % 16 * 16 + y / 4) / 16 = x := by omega
        have three : (x % 16 * 16 + y / 4) % 16 * 4 = y := by omega
        rw [encode, val_byte (by omega), val_byte (by omega), one, two, three]
      next => cases decoded
  | case5 first second third fourth rest ih =>
      simp only [decode, Option.bind_eq_bind, Option.bind_eq_some_iff] at decoded
      obtain ⟨w, hw, x, hx, y, hy, z, hz, others, decoded, same⟩ := decoded
      obtain ⟨small, rfl⟩ := alphabet.symbol_value _ _ hw
      obtain ⟨few, rfl⟩ := alphabet.symbol_value _ _ hx
      obtain ⟨less, rfl⟩ := alphabet.symbol_value _ _ hy
      obtain ⟨last, rfl⟩ := alphabet.symbol_value _ _ hz
      cases same
      have one : (w * 4 + x / 16) / 4 = w := by omega
      have two : (w * 4 + x / 16) % 4 * 16 + (x % 16 * 16 + y / 4) / 16 = x := by omega
      have three : (x % 16 * 16 + y / 4) % 16 * 4 + (y % 4 * 64 + z) / 64 = y := by omega
      have four : (y % 4 * 64 + z) % 64 = z := by omega
      rw [encode, val_byte (by omega), val_byte (by omega), val_byte (by omega), one, two, three,
        four, ih decoded]

/-- Four symbols stand for three bytes, and no padding is written. -/
theorem length_encode (bytes : List (Fin 256)) :
    (encode alphabet bytes).length = (bytes.length * 4 + 2) / 3 := by
  induction bytes using encode.induct with
  | case1 => rfl
  | case2 first => simp [encode]
  | case3 first second => simp [encode]
  | case4 first second third rest ih =>
      simp only [encode, List.length_cons, ih]
      omega

/-- Every symbol of an encoding is of the alphabet. -/
theorem mem_encode {bytes : List (Fin 256)} {character : Char}
    (member : character ∈ encode alphabet bytes) :
    ∃ sextet < 64, alphabet.symbol sextet = character := by
  induction bytes using encode.induct with
  | case1 => cases member
  | case2 first =>
      simp only [encode, List.mem_cons, List.not_mem_nil, or_false] at member
      obtain rfl | rfl := member
      · exact ⟨_, by omega, rfl⟩
      · exact ⟨_, by omega, rfl⟩
  | case3 first second =>
      simp only [encode, List.mem_cons, List.not_mem_nil, or_false] at member
      obtain rfl | rfl | rfl := member
      · exact ⟨_, by omega, rfl⟩
      · exact ⟨_, by omega, rfl⟩
      · exact ⟨_, by omega, rfl⟩
  | case4 first second third rest ih =>
      simp only [encode, List.mem_cons] at member
      obtain rfl | rfl | rfl | rfl | later := member
      · exact ⟨_, by omega, rfl⟩
      · exact ⟨_, by omega, rfl⟩
      · exact ⟨_, by omega, rfl⟩
      · exact ⟨_, by omega, rfl⟩
      · exact ih later

end Foundation.Base64
