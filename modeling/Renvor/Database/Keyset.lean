import Mathlib.Algebra.Order.BigOperators.Group.List
import Renvor.Database.Page
import Renvor.Foundation.BigEndian
import Renvor.Validation.Cursor

/-! # Keyset positions as cursors

A position is laid out as its query's fingerprint, a count and the values with their
lengths. A cursor is read as the position at its beginning, whatever comes after it
(`Renvor.Keyset.fromCursor_ok`), and is read back where it is not too long
(`Renvor.keyset_round_trip_iff`).
-/

namespace Renvor

open Foundation

/-- A resumable position, and the fingerprint of the query it was issued for. -/
structure Keyset where
  fingerprint : Nat
  values : List (List Byte)
  bounded : fingerprint < 2 ^ 64
  deriving DecidableEq

inductive KeysetError
  | cursor (error : CursorError)
  | malformed
  | foreignQuery
  deriving DecidableEq

namespace Keyset

def u16Max : Nat := 65535

theorem maxSortTerms_lt : maxSortTerms + 1 ≤ u16Max := by decide

/-- A value, its length before it, as much of it as the length can tell. -/
def encodeValue (value : List Byte) : List Byte :=
  let len := min value.length u16Max
  BigEndian.bytes 2 len ++ value.take len

def toCursor (keyset : Keyset) : Cursor :=
  let count := min keyset.values.length u16Max
  ⟨BigEndian.bytes 8 keyset.fingerprint ++ BigEndian.bytes 2 count ++
    (keyset.values.take count).flatMap encodeValue⟩

/-- The values a count tells of; what is left over is not looked at. -/
def readValues : Nat → List Byte → Except KeysetError (List (List Byte))
  | 0, _ => .ok []
  | count + 1, bytes =>
      match BigEndian.read 2 bytes with
      | none => .error .malformed
      | some (len, rest) =>
          match BigEndian.cut len rest with
          | none => .error .malformed
          | some (value, rest) => (readValues count rest).map (value :: ·)

def fromCursor (text : String) (fingerprint : Nat) (bounded : fingerprint < 2 ^ 64) :
    Except KeysetError Keyset :=
  match Cursor.decode text with
  | .error error => .error (.cursor error)
  | .ok cursor =>
      match BigEndian.cut 10 cursor.position with
      | none => .error .malformed
      | some (head, rest) =>
          if BigEndian.number (head.take 8) ≠ fingerprint then .error .foreignQuery
          else if maxSortTerms + 1 < BigEndian.number (head.drop 8) then .error .malformed
          else (readValues (BigEndian.number (head.drop 8)) rest).map fun values =>
            ⟨fingerprint, values, bounded⟩

/-! ## Reading what was laid out -/

/-- A value with its whole length before it. -/
def layoutValue (value : List Byte) : List Byte := BigEndian.bytes 2 value.length ++ value

/-- A position with nothing cut short. -/
def layout (fingerprint : Nat) (values : List (List Byte)) : List Byte :=
  BigEndian.bytes 8 fingerprint ++ BigEndian.bytes 2 values.length ++ values.flatMap layoutValue

theorem encodeValue_short {value : List Byte} (short : value.length ≤ u16Max) :
    encodeValue value = layoutValue value := by
  unfold encodeValue layoutValue
  rw [Nat.min_eq_left short]
  simp only [List.take_length]

theorem position_short {keyset : Keyset} (few : keyset.values.length ≤ u16Max)
    (short : ∀ value ∈ keyset.values, value.length ≤ u16Max) :
    keyset.toCursor.position = layout keyset.fingerprint keyset.values := by
  unfold toCursor layout
  rw [Nat.min_eq_left few]
  dsimp only
  rw [List.take_length]
  exact congrArg _ (List.flatMap_congr fun value member => encodeValue_short (short value member))

/-- Values are read exactly where they are laid out. -/
theorem readValues_ok {count : Nat} {bytes : List Byte} {values : List (List Byte)} :
    readValues count bytes = .ok values ↔ values.length = count ∧
      (∀ value ∈ values, value.length ≤ u16Max) ∧
      ∃ rest, bytes = values.flatMap layoutValue ++ rest := by
  induction count generalizing bytes values with
  | zero =>
      constructor
      · intro read
        cases read
        exact ⟨rfl, nofun, bytes, rfl⟩
      · rintro ⟨none, _⟩
        rw [List.length_eq_zero_iff.mp none]
        rfl
  | succ count ih =>
      unfold readValues
      constructor
      · intro read
        split at read
        next => cases read
        next len after length =>
          split at read
          next => cases read
          next value rest parts =>
            obtain ⟨fits, rfl⟩ := BigEndian.read_some.mp length
            obtain ⟨rfl, rfl⟩ := BigEndian.cut_some.mp parts
            generalize later : readValues count rest = others at read
            cases others with
            | error error => cases read
            | ok others =>
                cases read
                obtain ⟨rfl, short, end_, rfl⟩ := ih.mp later
                refine ⟨rfl, ?_, end_, ?_⟩
                · intro other member
                  rcases List.mem_cons.mp member with rfl | after
                  · exact Nat.le_of_lt_succ fits
                  · exact short other after
                · rw [List.flatMap_cons, layoutValue, List.append_assoc, List.append_assoc]
      · rintro ⟨length, short, rest, rfl⟩
        cases values with
        | nil => cases length
        | cons value others =>
            have small : value.length < 256 ^ 2 := Nat.lt_succ_of_le (short value List.mem_cons_self)
            have later := ih.mpr ⟨Nat.succ.inj length,
              fun other member => short other (List.mem_cons_of_mem value member), rest, rfl⟩
            rw [List.flatMap_cons, layoutValue, List.append_assoc, List.append_assoc,
              BigEndian.read_some.mpr ⟨small, rfl⟩]
            dsimp only
            rw [BigEndian.cut_some.mpr ⟨rfl, rfl⟩]
            dsimp only
            rw [later]
            rfl

/-- **A cursor is read as the position its bytes begin with.** -/
theorem fromCursor_ok {text : String} {fingerprint : Nat} {bounded : fingerprint < 2 ^ 64}
    {keyset : Keyset} :
    fromCursor text fingerprint bounded = .ok keyset ↔
      keyset.fingerprint = fingerprint ∧ keyset.values.length ≤ maxSortTerms + 1 ∧
      (∀ value ∈ keyset.values, value.length ≤ u16Max) ∧
      ∃ rest, Cursor.decode text = .ok ⟨layout fingerprint keyset.values ++ rest⟩ := by
  unfold fromCursor
  constructor
  · intro read
    split at read
    next => cases read
    next cursor decoded =>
      split at read
      next => cases read
      next head rest parts =>
        obtain ⟨ten, whole⟩ := BigEndian.cut_some.mp parts
        split at read
        next => cases read
        next same =>
          split at read
          next => cases read
          next few =>
            generalize parsed : readValues _ rest = values at read
            cases values with
            | error error => cases read
            | ok values =>
                cases read
                obtain ⟨length, short, end_, rfl⟩ := readValues_ok.mp parsed
                refine ⟨rfl, by rw [length]; exact Nat.le_of_not_lt few, short, end_, ?_⟩
                have eight : (head.take 8).length = 8 := by
                  rw [List.length_take, ten]
                  rfl
                have two : (head.drop 8).length = 2 := by rw [List.length_drop, ten]
                have front := BigEndian.bytes_number (head.take 8)
                have back := BigEndian.bytes_number (head.drop 8)
                rw [eight, not_not.mp same] at front
                rw [two, ← length] at back
                rw [decoded]
                obtain ⟨position⟩ := cursor
                cases whole
                rw [layout, front, back, List.take_append_drop, List.append_assoc]
                rfl
  · rintro ⟨rfl, few, short, rest, decoded⟩
    have bound : keyset.values.length < 256 ^ 2 := by
      unfold maxSortTerms at few
      omega
    rw [decoded]
    dsimp only
    rw [layout, List.append_assoc, BigEndian.cut_some.mpr ⟨by simp, rfl⟩]
    dsimp only
    rw [List.take_left' (BigEndian.length_bytes 8 _), List.drop_left' (BigEndian.length_bytes 8 _),
      BigEndian.number_bytes keyset.bounded, BigEndian.number_bytes bound,
      if_neg (not_not.mpr rfl), if_neg (Nat.not_lt.mpr few),
      readValues_ok.mpr ⟨rfl, short, rest, rfl⟩]
    rfl

/-! ## Round trips -/

/-- The bytes of a position, all its values told. -/
def size (keyset : Keyset) : Nat := 10 + (keyset.values.map fun value => 2 + value.length).sum

theorem length_layout (keyset : Keyset) :
    (layout keyset.fingerprint keyset.values).length = keyset.size := by
  have each : ∀ value, (layoutValue value).length = 2 + value.length := by
    intro value
    simp [layoutValue]
  unfold layout size
  simp only [List.length_append, BigEndian.length_bytes, List.length_flatMap, each]

/-- What a cursor's text is read as ends where its bytes end. -/
def NothingAfter (text : String) (fingerprint : Nat) : Prop :=
  ∀ (values : List (List Byte)) (rest : List Byte), values.length ≤ maxSortTerms + 1 →
    (∀ value ∈ values, value.length ≤ u16Max) →
    Cursor.decode text = .ok ⟨layout fingerprint values ++ rest⟩ → rest = []

/-- A position is read back exactly where it is not too long for a cursor. -/
theorem fromCursor_toCursor_iff {keyset : Keyset}
    (few : keyset.values.length ≤ maxSortTerms + 1) :
    fromCursor keyset.toCursor.encode keyset.fingerprint keyset.bounded = .ok keyset ↔
      keyset.size ≤ 767 := by
  have many : keyset.values.length ≤ u16Max := few.trans maxSortTerms_lt
  constructor
  · intro read
    obtain ⟨_, _, short, rest, decoded⟩ := fromCursor_ok.mp read
    have fits := (Cursor.decode_ok.mp decoded).2
    rw [Cursor.utf8ByteSize_encode, position_short many short, length_layout] at fits
    unfold maxCursorBytes at fits
    omega
  · intro small
    have short : ∀ value ∈ keyset.values, value.length ≤ u16Max := by
      intro value member
      have part := List.le_sum_of_mem
        (List.mem_map_of_mem (f := fun value : List Byte => 2 + value.length) member)
      unfold size at small
      unfold u16Max
      omega
    have position := position_short many short
    refine fromCursor_ok.mpr ⟨rfl, few, short, [], ?_⟩
    rw [List.append_nil, ← position]
    refine Cursor.decode_ok.mpr ⟨rfl, ?_⟩
    rw [Cursor.utf8ByteSize_encode, position, length_layout]
    unfold maxCursorBytes
    omega

/-- What is read is encoded as the cursor it was read from exactly where nothing
comes after it. -/
theorem fromCursor_exact_iff {text : String} {fingerprint : Nat}
    {bounded : fingerprint < 2 ^ 64} :
    (∀ keyset, fromCursor text fingerprint bounded = .ok keyset →
      text = keyset.toCursor.encode) ↔ NothingAfter text fingerprint := by
  constructor
  · intro exact values rest few short decoded
    obtain ⟨keyset, rfl, rfl⟩ : ∃ keyset : Keyset,
        keyset.fingerprint = fingerprint ∧ keyset.values = values :=
      ⟨⟨fingerprint, values, bounded⟩, rfl, rfl⟩
    have same := exact keyset (fromCursor_ok.mpr ⟨rfl, few, short, rest, decoded⟩)
    have fits := (Cursor.decode_ok.mp decoded).2
    have again := Cursor.decode_ok.mpr ⟨same, fits⟩
    rw [decoded] at again
    have position := congrArg Cursor.position (Except.ok.inj again)
    rw [position_short (few.trans maxSortTerms_lt) short] at position
    exact List.append_right_eq_self.mp position
  · intro nothing keyset read
    obtain ⟨rfl, few, short, rest, decoded⟩ := fromCursor_ok.mp read
    have none := nothing keyset.values rest few short decoded
    subst none
    rw [List.append_nil, ← position_short (few.trans maxSortTerms_lt) short] at decoded
    exact (Cursor.decode_ok.mp decoded).1

end Keyset

/-- **Positions of at most nine values and cursors are each other's, exactly where the
position fits a cursor and nothing comes after what the cursor is read as.** -/
theorem keyset_round_trip_iff (keyset : Keyset)
    (few : keyset.values.length ≤ maxSortTerms + 1) (text : String) (fingerprint : Nat)
    (bounded : fingerprint < 2 ^ 64) :
    (Keyset.fromCursor keyset.toCursor.encode keyset.fingerprint keyset.bounded = .ok keyset ∧
      ∀ read, Keyset.fromCursor text fingerprint bounded = .ok read →
        text = read.toCursor.encode) ↔
      keyset.size ≤ 767 ∧ Keyset.NothingAfter text fingerprint :=
  and_congr (Keyset.fromCursor_toCursor_iff few) Keyset.fromCursor_exact_iff

/-- A position of one value, which fits. -/
def Keyset.short : Keyset := ⟨7, [[1, 2, 3]], by decide⟩

theorem keyset_round_trip_short : Keyset.short.size ≤ 767 ∧
    Keyset.NothingAfter Keyset.short.toCursor.encode 8 := by
  refine (keyset_round_trip_iff Keyset.short (by decide) Keyset.short.toCursor.encode 8
    (by decide)).mp ⟨by decide +kernel, fun read given => ?_⟩
  have foreign : Keyset.fromCursor Keyset.short.toCursor.encode 8 (by decide) =
      .error .foreignQuery := by decide +kernel
  rw [foreign] at given
  cases given

/-- A value of a thousand bytes does not come back, and a cursor with a byte too many
is read. -/
theorem keyset_not_round_trip : ¬ ∀ (keyset : Keyset),
    keyset.values.length ≤ maxSortTerms + 1 → ∀ (text : String) (fingerprint : Nat)
    (bounded : fingerprint < 2 ^ 64),
    Keyset.fromCursor keyset.toCursor.encode keyset.fingerprint keyset.bounded = .ok keyset ∧
      ∀ read, Keyset.fromCursor text fingerprint bounded = .ok read →
        text = read.toCursor.encode := by
  intro every
  have back := (every Keyset.short (by decide)
    (Cursor.encode ⟨Keyset.short.toCursor.position ++ [0]⟩) 7 (by decide)).2 Keyset.short
    (by decide +kernel)
  exact absurd back (by decide +kernel)

end Renvor
