import Mathlib.Tactic.Common

/-! # Bytes read as text

Bytes that no character is written with are read as the replacement character, one
for each longest start of a character. Text is what is read as it stands.
-/

namespace Foundation.Utf8

/-- A character that is begun, with what its remaining bytes may be. -/
structure Begun where
  held : List (Fin 256)
  more : Nat
  low : Nat
  high : Nat

/-- The replacement character's bytes. -/
def replacement : List (Fin 256) := [⟨0xEF, by decide⟩, ⟨0xBF, by decide⟩, ⟨0xBD, by decide⟩]

/-- What a first byte gives, and the character it begins. -/
def first (byte : Fin 256) : List (Fin 256) × Option Begun :=
  if byte.val < 0x80 then ([byte], none)
  else if 0xC2 ≤ byte.val ∧ byte.val ≤ 0xDF then ([], some ⟨[byte], 1, 0x80, 0xBF⟩)
  else if byte.val = 0xE0 then ([], some ⟨[byte], 2, 0xA0, 0xBF⟩)
  else if byte.val = 0xED then ([], some ⟨[byte], 2, 0x80, 0x9F⟩)
  else if 0xE1 ≤ byte.val ∧ byte.val ≤ 0xEF then ([], some ⟨[byte], 2, 0x80, 0xBF⟩)
  else if byte.val = 0xF0 then ([], some ⟨[byte], 3, 0x90, 0xBF⟩)
  else if 0xF1 ≤ byte.val ∧ byte.val ≤ 0xF3 then ([], some ⟨[byte], 3, 0x80, 0xBF⟩)
  else if byte.val = 0xF4 then ([], some ⟨[byte], 3, 0x80, 0x8F⟩)
  else (replacement, none)

/-- One byte more. -/
def next : Option Begun → Fin 256 → List (Fin 256) × Option Begun
  | none, byte => first byte
  | some begun, byte =>
      if begun.low ≤ byte.val ∧ byte.val ≤ begun.high then
        if begun.more ≤ 1 then (begun.held ++ [byte], none)
        else ([], some ⟨begun.held ++ [byte], begun.more - 1, 0x80, 0xBF⟩)
      else (replacement ++ (first byte).1, (first byte).2)

def readFrom : Option Begun → List (Fin 256) → List (Fin 256)
  | none, [] => []
  | some _, [] => replacement
  | begun, byte :: rest => (next begun byte).1 ++ readFrom (next begun byte).2 rest

/-- Bytes read as text. -/
def lossy (bytes : List (Fin 256)) : List (Fin 256) := readFrom none bytes

variable {byte value : Fin 256} {bytes : List (Fin 256)} {begun : Option Begun}

theorem replacement_mem (small : value.val < 0x80) : value ∉ replacement := by
  intro held
  simp only [replacement, List.mem_cons, List.not_mem_nil, or_false] at held
  obtain rfl | rfl | rfl := held <;> revert small <;> decide

/-- A first byte is a character, or begins one, or is replaced. -/
inductive Gives (byte : Fin 256) : List (Fin 256) × Option Begun → Prop
  | character : Gives byte ([byte], none)
  | begins (more low high : Nat) : Gives byte ([], some ⟨[byte], more, low, high⟩)
  | replaced : Gives byte (replacement, none)

theorem first_gives (byte : Fin 256) : Gives byte (first byte) := by
  refine iteInduction (motive := Gives byte) (fun _ => .character) fun _ => ?_
  iterate 7 refine iteInduction (motive := Gives byte) (fun _ => .begins _ _ _) fun _ => ?_
  exact .replaced

theorem first_mem (small : value.val < 0x80) :
    (value ∈ (first byte).1 → value = byte) ∧
      ∀ begun, (first byte).2 = some begun → value ∈ begun.held → value = byte := by
  have gives := first_gives byte
  generalize first byte = given at gives
  cases gives with
  | character => exact ⟨List.mem_singleton.mp, nofun⟩
  | begins more low high =>
      refine ⟨nofun, fun begun same held => ?_⟩
      cases same
      exact List.mem_singleton.mp held
  | replaced => exact ⟨fun held => (replacement_mem small held).elim, nofun⟩
/-- What a byte gives and leaves begun was in hand before it. -/
theorem next_mem (small : value.val < 0x80) :
    (value ∈ (next begun byte).1 → value = byte ∨ ∃ held, begun = some held ∧ value ∈ held.held) ∧
      ∀ after, (next begun byte).2 = some after → value ∈ after.held →
        value = byte ∨ ∃ held, begun = some held ∧ value ∈ held.held := by
  have replaced := @replacement_mem value small
  have start := @first_mem byte value small
  cases begun with
  | none =>
      exact ⟨fun held => .inl (start.1 held), fun after is held => .inl (start.2 after is held)⟩
  | some begun =>
      dsimp only [next]
      split_ifs with range short
      · refine ⟨fun held => ?_, fun after is _ => nomatch is⟩
        rcases List.mem_append.mp held with held | held
        · exact .inr ⟨begun, rfl, held⟩
        · exact .inl (List.mem_singleton.mp held)
      · refine ⟨fun held => (nomatch held), fun after is held => ?_⟩
        cases is
        rcases List.mem_append.mp held with held | held
        · exact .inr ⟨begun, rfl, held⟩
        · exact .inl (List.mem_singleton.mp held)
      · refine ⟨fun held => ?_, fun after is held => .inl (start.2 after is held)⟩
        rcases List.mem_append.mp held with held | held
        · exact (replaced held).elim
        · exact .inl (start.1 held)

theorem readFrom_mem (small : value.val < 0x80) (held : value ∈ readFrom begun bytes) :
    value ∈ bytes ∨ ∃ before, begun = some before ∧ value ∈ before.held := by
  induction bytes generalizing begun with
  | nil =>
      cases begun with
      | none => exact nomatch held
      | some begun => exact (replacement_mem small held).elim
  | cons byte rest ih =>
      have step := @next_mem byte value begun small
      have unfolded : readFrom begun (byte :: rest) =
          (next begun byte).1 ++ readFrom (next begun byte).2 rest := by
        cases begun <;> rfl
      rw [unfolded] at held
      rcases List.mem_append.mp held with held | held
      · rcases step.1 held with rfl | before
        · exact .inl List.mem_cons_self
        · exact .inr before
      · rcases ih held with held | ⟨after, is, held⟩
        · exact .inl (List.mem_cons_of_mem _ held)
        · rcases step.2 after is held with rfl | before
          · exact .inl List.mem_cons_self
          · exact .inr before

/-- **Reading makes up no byte of one-byte characters.** -/
theorem lossy_mem (small : value.val < 0x80) (held : value ∈ lossy bytes) : value ∈ bytes :=
  (readFrom_mem small held).resolve_right (fun ⟨_, is, _⟩ => nomatch is)

end Foundation.Utf8
