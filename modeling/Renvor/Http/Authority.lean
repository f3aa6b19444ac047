import Mathlib.Algebra.Group.Nat.Defs
import Mathlib.Data.List.DropRight
import Renvor.Http.Origin

/-! # Hosts and ports as an authority writes them

The normaliser reads a text as a host and a port exactly where the text is a host it
delimits and the port after it (`Renvor.splitPort_iff`, `Renvor.normaliseHost_iff`). What
it returns it reads as itself, unless it ends in a blank (`Renvor.normaliseHost_again`).
-/

namespace Renvor

/-! ## Lower case -/

theorem toLower_cases (character : Char) :
    character.toLower = character ∧ ¬(0x41 ≤ character.toNat ∧ character.toNat ≤ 0x5A) ∨
      (0x41 ≤ character.toNat ∧ character.toNat ≤ 0x5A) ∧
        character.toLower.toNat = character.toNat + 32 := by
  unfold Char.toLower
  split
  next upper =>
    right
    have low : 0x41 ≤ character.toNat := UInt32.le_iff_toNat_le.mp upper.1
    have high : character.toNat ≤ 0x5A := UInt32.le_iff_toNat_le.mp upper.2
    refine ⟨⟨low, high⟩, ?_⟩
    change (character.val + ('a'.val - 'A'.val)).toNat = _
    rw [UInt32.toNat_add]
    change (character.toNat + 32) % 2 ^ 32 = _
    omega
  next other =>
    left
    refine ⟨rfl, fun upper => other ⟨?_, ?_⟩⟩
    · exact UInt32.le_iff_toNat_le.mpr upper.1
    · exact UInt32.le_iff_toNat_le.mpr upper.2

/-- A character that is no letter of either case. -/
def Caseless (character : Char) : Prop :=
  (character.toNat < 0x41 ∨ 0x5A < character.toNat) ∧
    (character.toNat < 0x61 ∨ 0x7A < character.toNat)

instance (character : Char) : Decidable (Caseless character) :=
  inferInstanceAs (Decidable (_ ∧ _))

theorem toLower_caseless {mark character : Char} (caseless : Caseless mark) :
    character.toLower = mark ↔ character = mark := by
  unfold Caseless at caseless
  rcases toLower_cases character with ⟨same, _⟩ | ⟨upper, lower⟩
  · rw [same]
  · constructor
    · rintro rfl
      omega
    · rintro rfl
      omega

theorem toLower_toLower (character : Char) : character.toLower.toLower = character.toLower := by
  rcases toLower_cases character.toLower with ⟨same, _⟩ | ⟨upper, _⟩
  · exact same
  · rcases toLower_cases character with ⟨same, other⟩ | ⟨_, lower⟩
    · rw [same] at upper
      exact absurd upper other
    · omega

theorem mem_lower {mark : Char} {text : List Char} (caseless : Caseless mark) :
    mark ∈ text.map Char.toLower ↔ mark ∈ text := by
  constructor
  · intro member
    obtain ⟨character, member, lower⟩ := List.mem_map.mp member
    rw [toLower_caseless caseless] at lower
    exact lower ▸ member
  · intro member
    exact List.mem_map.mpr ⟨mark, member, (toLower_caseless caseless).mpr rfl⟩

/-! ## Ports -/

/-- The digits of a port: some, for a number from 1 to 65535. -/
structure PortDigits (digits : List Char) : Prop where
  some : digits ≠ []
  digit : ∀ character ∈ digits, isAsciiDigit character = true
  positive : 0 < Nat.ofDigitChars 10 digits 0
  fits : Nat.ofDigitChars 10 digits 0 < 65536

theorem parsePort_iff {digits : List Char} {port : Fin 65536} :
    parsePort digits = some port ↔
      PortDigits digits ∧ Nat.ofDigitChars 10 digits 0 = port.val := by
  have value : digits.foldl (fun value digit => 10 * value + (digit.toNat - '0'.toNat)) 0 =
      Nat.ofDigitChars 10 digits 0 := rfl
  unfold parsePort
  simp only [value]
  constructor
  · intro parsed
    split at parsed
    next => cases parsed
    next digit =>
      split at parsed
      next fits =>
        split at parsed
        next => cases parsed
        next positive =>
          cases parsed
          simp only [Bool.or_eq_true, List.isEmpty_iff, Bool.not_eq_true', not_or,
            Bool.not_eq_false, List.all_eq_true] at digit
          exact ⟨⟨digit.1, digit.2, Nat.pos_of_ne_zero positive, fits⟩, rfl⟩
      next => cases parsed
  · rintro ⟨written, read⟩
    have nonempty : digits.isEmpty = false := by
      rw [← Bool.not_eq_true, List.isEmpty_iff]
      exact written.some
    have all : digits.all isAsciiDigit = true := List.all_eq_true.mpr written.digit
    rw [if_neg (by rw [nonempty, all]; decide), dif_pos written.fits,
      if_neg (Nat.pos_iff_ne_zero.mp written.positive)]
    exact congrArg Option.some (Fin.ext read)

/-- What stands after a host: nothing, or a colon and a port. -/
def portText : Option (List Char) → List Char
  | none => []
  | some digits => ':' :: digits

/-- The number a port's digits write. -/
def portValue (digits : List Char) : Nat := Nat.ofDigitChars 10 digits 0

/-- The digits of a port that a number is. -/
theorem portDigits_toDigits {port : Fin 65536} (positive : 0 < port.val) :
    PortDigits (Nat.toDigits 10 port.val) where
  some := Nat.toDigits_ne_nil
  digit := by
    intro character member
    have digit := Nat.isDigit_of_mem_toDigits (by decide) (Nat.le_refl 10) member
    unfold isAsciiDigit
    simpa [Char.isDigit, Char.le_def] using digit
  positive := by rwa [Nat.ofDigitChars_ten_toDigits]
  fits := by
    rw [Nat.ofDigitChars_ten_toDigits]
    exact port.isLt

theorem ofDigitChars_lt {digits : List Char}
    (digit : ∀ character ∈ digits, isAsciiDigit character = true) :
    Nat.ofDigitChars 10 digits 0 < 10 ^ digits.length := by
  induction digits using List.reverseRecOn with
  | nil => decide
  | append_singleton front last ih =>
      have before := ih fun character member => digit character (List.mem_append_left _ member)
      have small : last.toNat - '0'.toNat ≤ 9 := by
        have own := digit last (by simp)
        simp only [isAsciiDigit, Bool.and_eq_true, decide_eq_true_eq] at own
        have top : last.toNat ≤ '9'.toNat := UInt32.le_iff_toNat_le.mp own.2
        change last.toNat ≤ 57 at top
        change last.toNat - 48 ≤ 9
        omega
      unfold Nat.ofDigitChars at before ⊢
      rw [List.foldl_append, List.length_append, List.length_singleton, Nat.pow_succ]
      simp only [List.foldl_cons, List.foldl_nil]
      omega

/-- A number is written in no more digits than it can be. -/
theorem length_toDigits_le {digits : List Char} (written : PortDigits digits) :
    (Nat.toDigits 10 (portValue digits)).length ≤ digits.length := by
  rw [Nat.length_toDigits_le_iff (by decide)
    (List.length_pos_iff.mpr written.some)]
  exact ofDigitChars_lt written.digit

/-! ## Hosts -/

/-- A host in brackets, or one without a colon that begins with none. -/
def Delimited (host : List Char) : Prop :=
  (∃ literal, ']' ∉ literal ∧ host = '[' :: literal ++ [']']) ∨
    host.head? ≠ some '[' ∧ ':' ∉ host

/-- **A text splits into a host and a port just where it is written as one and the
other.** -/
theorem splitPort_iff {text host : List Char} {port : Option (Fin 65536)} :
    splitPort text = some (host, port) ↔
      ∃ digits, text = host ++ portText digits ∧ Delimited host ∧
        (∀ written ∈ digits, PortDigits written) ∧
        digits.map portValue = port.map Fin.val := by
  constructor
  · intro reading
    unfold splitPort at reading
    split at reading
    next rest =>
      obtain ⟨⟨literal, after⟩, bracket, tail⟩ := Option.bind_eq_some_iff.mp reading
      obtain ⟨rfl, absent⟩ := splitOnce_first bracket
      simp only at tail
      split at tail
      next =>
        cases tail
        exact ⟨none, by simp [portText], .inl ⟨literal, absent, rfl⟩, by simp, rfl⟩
      next digits =>
        obtain ⟨number, parsed, ends⟩ := Option.bind_eq_some_iff.mp tail
        cases ends
        obtain ⟨written, value⟩ := parsePort_iff.mp parsed
        refine ⟨some digits, by simp [portText], .inl ⟨literal, absent, rfl⟩, ?_, ?_⟩
        · intro other member
          cases member
          exact written
        · exact congrArg some value
      next => cases tail
    next unbracketed =>
      have begins : ∀ {front back : List Char}, text = front ++ back →
          front.head? ≠ some '[' := by
        intro front back whole first
        cases front with
        | nil => cases first
        | cons character rest =>
            cases first
            exact unbracketed (rest ++ back) whole
      split at reading
      next whole =>
        cases reading
        exact ⟨none, by simp [portText],
          .inr ⟨begins (List.append_nil _).symm, splitOnce_none.mp whole⟩, by simp, rfl⟩
      next front digits parts =>
        split at reading
        next => cases reading
        next single =>
          obtain ⟨number, parsed, reading⟩ := Option.bind_eq_some_iff.mp reading
          cases reading
          obtain ⟨rfl, absent⟩ := splitOnce_first parts
          obtain ⟨written, value⟩ := parsePort_iff.mp parsed
          refine ⟨some digits, rfl, .inr ⟨begins rfl, absent⟩, ?_, ?_⟩
          · intro other member
            cases member
            exact written
          · exact congrArg some value
  · rintro ⟨digits, rfl, delimited, written, value⟩
    rcases delimited with ⟨literal, absent, rfl⟩ | ⟨begins, absent⟩
    · have bracket : splitOnce [']'] (literal ++ ']' :: portText digits) =
          some (literal, portText digits) := splitOnce_cons absent
      have text : '[' :: literal ++ [']'] ++ portText digits =
          '[' :: (literal ++ ']' :: portText digits) := by simp
      rw [text, splitPort, bracket]
      cases digits with
      | none =>
          rw [Option.map_none, eq_comm, Option.map_eq_none_iff] at value
          rw [value]
          rfl
      | some digits =>
          obtain ⟨number, rfl, same⟩ := Option.map_eq_some_iff.mp value.symm
          have parsed : parsePort digits = some number :=
            parsePort_iff.mpr ⟨written digits rfl, same.symm⟩
          simp [portText, parsed]
    · have unbracketed : ∀ rest, host ++ portText digits ≠ '[' :: rest := by
        intro rest whole
        cases host with
        | nil => cases digits <;> cases whole
        | cons character front =>
            cases whole
            exact begins rfl
      unfold splitPort
      split
      next rest whole => exact absurd whole (unbracketed rest)
      next =>
        cases digits with
        | none =>
            rw [Option.map_none, eq_comm, Option.map_eq_none_iff] at value
            simp [portText, splitOnce_none.mpr absent, value]
        | some digits =>
            obtain ⟨number, rfl, same⟩ := Option.map_eq_some_iff.mp value.symm
            have parsed : parsePort digits = some number :=
              parsePort_iff.mpr ⟨written digits rfl, same.symm⟩
            have single : ':' ∉ digits := fun member =>
              absurd ((written digits rfl).digit ':' member) (by decide)
            rw [portText, splitOnce_cons absent]
            simp [single, parsed]

/-- **Two hosts are the same up to case and the dots after them.** -/
def SameHost (left right : List Char) : Prop :=
  ∃ front first second, left.map Char.toLower = front ++ List.replicate first '.' ∧
    right.map Char.toLower = front ++ List.replicate second '.'

theorem foldHost_rdropWhile (host : List Char) :
    foldHost host = (host.map Char.toLower).rdropWhile (· = '.') := rfl

theorem foldHost_dots (host : List Char) :
    ∃ dots, host.map Char.toLower = foldHost host ++ List.replicate dots '.' := by
  have parts := (host.map Char.toLower).rdropWhile_append_rtakeWhile (p := (· = '.'))
  refine ⟨((host.map Char.toLower).rtakeWhile (· = '.')).length, ?_⟩
  have dots : (host.map Char.toLower).rtakeWhile (· = '.') =
      List.replicate ((host.map Char.toLower).rtakeWhile (· = '.')).length '.' := by
    refine List.eq_replicate_of_mem fun character member => ?_
    simpa using List.mem_rtakeWhile_imp member
  rw [← dots, foldHost_rdropWhile]
  exact parts.symm

theorem sameHost_iff {left right : List Char} :
    SameHost left right ↔ foldHost left = foldHost right := by
  constructor
  · rintro ⟨front, first, second, lowered, lowered'⟩
    have fold : ∀ dots, (front ++ List.replicate dots '.').rdropWhile (· = '.') =
        front.rdropWhile (· = '.') := by
      intro dots
      rw [List.rdropWhile, List.reverse_append, List.reverse_replicate,
        List.dropWhile_append_of_pos]
      · rfl
      · intro character member
        simpa using List.eq_of_mem_replicate member
    rw [foldHost_rdropWhile, foldHost_rdropWhile, lowered, lowered', fold, fold]
  · intro same
    obtain ⟨first, lowered⟩ := foldHost_dots left
    obtain ⟨second, lowered'⟩ := foldHost_dots right
    exact ⟨foldHost left, first, second, lowered, same ▸ lowered'⟩

theorem mem_foldHost {host : List Char} {character : Char} (member : character ∈ foldHost host) :
    ∃ written ∈ host, written.toLower = character := by
  rw [foldHost_rdropWhile] at member
  exact List.mem_map.mp (( List.rdropWhile_prefix _ (host.map Char.toLower)).subset member)

/-- A folded host is folded already. -/
theorem foldHost_foldHost (host : List Char) : foldHost (foldHost host) = foldHost host := by
  have lowered : (foldHost host).map Char.toLower = foldHost host := by
    refine (List.map_congr_left fun character member => ?_).trans (List.map_id _)
    obtain ⟨written, _, rfl⟩ := mem_foldHost member
    exact toLower_toLower written
  rw [foldHost_rdropWhile (foldHost host), lowered, foldHost_rdropWhile, List.rdropWhile_idempotent]

theorem foldHost_bracketed (literal : List Char) :
    foldHost ('[' :: literal ++ [']']) = '[' :: literal.map Char.toLower ++ [']'] := by
  rw [foldHost_rdropWhile, List.map_append, List.map_cons, List.map_singleton,
    List.rdropWhile_concat_neg _ _ _ (by decide)]
  rfl

theorem Delimited.fold {host : List Char} (delimited : Delimited host) :
    Delimited (foldHost host) := by
  rcases delimited with ⟨literal, absent, rfl⟩ | ⟨begins, absent⟩
  · rw [foldHost_bracketed]
    exact .inl ⟨_, fun member => absent ((mem_lower (by decide)).mp member), rfl⟩
  · refine .inr ⟨fun first => begins ?_, fun member => ?_⟩
    · obtain ⟨dots, whole⟩ := foldHost_dots host
      have lowered : (host.map Char.toLower).head? = some '[' := by
        rw [whole, List.head?_append, first]
        rfl
      rw [List.head?_map, Option.map_eq_some_iff] at lowered
      obtain ⟨character, head, lower⟩ := lowered
      rw [toLower_caseless (by decide)] at lower
      rw [head, lower]
    · obtain ⟨written, member, lower⟩ := mem_foldHost member
      rw [toLower_caseless (by decide)] at lower
      exact absent (lower ▸ member)

/-! ## The normaliser -/

/-- ASCII that is no control character, as of a host that is not refused. -/
def PrintableAscii (character : Char) : Prop :=
  isAscii character = true ∧ isControl character = false

theorem printableAscii_iff {character : Char} :
    PrintableAscii character ↔ 0x20 ≤ character.toNat ∧ character.toNat < 0x7F := by
  simp only [PrintableAscii, isAscii, isControl, decide_eq_true_eq, Bool.or_eq_false_iff,
    Bool.and_eq_false_iff, decide_eq_false_iff_not]
  omega

theorem PrintableAscii.lower {character : Char} (plain : PrintableAscii character) :
    PrintableAscii character.toLower := by
  rw [printableAscii_iff] at plain ⊢
  rcases toLower_cases character with ⟨same, _⟩ | ⟨upper, lower⟩
  · rw [same]
    exact plain
  · omega

/-- The only blank among them is the space. -/
theorem PrintableAscii.isWhitespace {character : Char} (plain : PrintableAscii character) :
    Renvor.isWhitespace character = true ↔ character = ' ' := by
  rw [printableAscii_iff] at plain
  have code : character = ' ' ↔ character.toNat = 0x20 := by
    constructor
    · rintro rfl
      rfl
    · intro code
      exact Char.ext (UInt32.toNat_inj.mp code)
  rw [code]
  simp only [Renvor.isWhitespace, Bool.or_eq_true, Bool.and_eq_true, decide_eq_true_eq]
  omega

theorem toList_trim (raw : String) :
    (trim raw).toList = (raw.toList.dropWhile isWhitespace).rdropWhile isWhitespace := by
  rw [trim, String.toList_ofList]
  rfl

/-- **What the normaliser reads.** -/
theorem normaliseHost_iff {raw host : String} {port : Option (Fin 65536)} :
    normaliseHost raw = some (host, port) ↔
      (∀ character ∈ (trim raw).toList, PrintableAscii character) ∧
        ∃ written digits, (trim raw).toList = written ++ portText digits ∧ Delimited written ∧
          (∀ text ∈ digits, PortDigits text) ∧ digits.map portValue = port.map Fin.val ∧
          foldHost written ≠ [] ∧ host = String.ofList (foldHost written) := by
  unfold normaliseHost
  simp only
  constructor
  · intro reading
    split at reading
    next => cases reading
    next clean =>
      obtain ⟨⟨written, read⟩, parts, folded⟩ := Option.bind_eq_some_iff.mp reading
      simp only [Bool.or_eq_true, Bool.not_eq_true', not_or, Bool.not_eq_false, Bool.not_eq_true,
        List.any_eq_false, List.all_eq_true] at clean
      obtain ⟨⟨_, noControl⟩, ascii⟩ := clean
      simp only at folded
      split at folded
      next => cases folded
      next =>
        split at folded
        next => cases folded
        next some =>
          cases folded
          obtain ⟨digits, whole, delimited, ports, value⟩ := splitPort_iff.mp parts
          rw [List.isEmpty_iff] at some
          exact ⟨fun character member => ⟨ascii character member, noControl character member⟩,
            written, digits, whole, delimited, ports, value, some, rfl⟩
  · rintro ⟨plain, written, digits, whole, delimited, ports, value, some, rfl⟩
    have named : written ≠ [] := by
      rintro rfl
      exact some rfl
    have nonempty : (trim raw).toList ≠ [] := by
      rw [whole]
      exact List.append_ne_nil_of_left_ne_nil named _
    have parts : splitPort (trim raw).toList = Option.some (written, port) :=
      splitPort_iff.mpr ⟨digits, whole, delimited, ports, value⟩
    rw [if_neg, parts]
    · show (if written.isEmpty = true then none else _) = _
      rw [if_neg (mt List.isEmpty_iff.mp named), if_neg (mt List.isEmpty_iff.mp some)]
      rfl
    · simp only [Bool.or_eq_true, Bool.not_eq_true', not_or, Bool.not_eq_false, Bool.not_eq_true,
        List.any_eq_false, List.all_eq_true, List.isEmpty_iff]
      exact ⟨⟨nonempty, fun character member => (plain character member).2⟩,
        fun character member => (plain character member).1⟩

/-- A text that neither begins nor ends in a blank is not trimmed. -/
theorem trim_clean {text : List Char}
    (begins : ∀ character ∈ text.head?, isWhitespace character = false)
    (ends : ∀ character ∈ text.getLast?, isWhitespace character = false) :
    trim (String.ofList text) = String.ofList text := by
  rw [← String.toList_inj, toList_trim, String.toList_ofList]
  cases text with
  | nil => rfl
  | cons first rest =>
      rw [List.dropWhile_cons_of_neg (by rw [begins first rfl]; decide),
        List.rdropWhile_eq_self_iff]
      intro nonempty blank
      rw [ends _ (List.getLast?_eq_some_getLast nonempty)] at blank
      cases blank

/-- What is trimmed begins with no blank. -/
theorem head_trim {raw : String} {character : Char}
    (first : character ∈ (trim raw).toList.head?) : isWhitespace character = false := by
  rw [toList_trim] at first
  obtain ⟨blanks, whole⟩ := List.rdropWhile_prefix isWhitespace (raw.toList.dropWhile isWhitespace)
  have head : (raw.toList.dropWhile isWhitespace).head? = some character := by
    rw [← whole, List.head?_append, first]
    rfl
  have kept := List.head?_dropWhile_not isWhitespace raw.toList
  rw [head] at kept
  exact kept

/-- The last blank of a text is trimmed. -/
theorem length_trim_lt {text : List Char} (ends : text.getLast? = some ' ') :
    (trim (String.ofList text)).toList.length < text.length := by
  rw [toList_trim, String.toList_ofList]
  obtain ⟨front, rfl⟩ := List.getLast?_eq_some_iff.mp ends
  have fewer := ((front ++ [' ']).dropWhile_suffix isWhitespace).length_le
  have shorter := ( List.rdropWhile_prefix isWhitespace
    (List.dropWhile isWhitespace (front ++ [' ']))).length_le
  refine Nat.lt_of_le_of_ne (shorter.trans fewer) fun same => ?_
  have all : (front ++ [' ']).dropWhile isWhitespace = front ++ [' '] :=
    ((front ++ [' ']).dropWhile_suffix isWhitespace).eq_of_length (by omega)
  rw [all, List.rdropWhile_concat_pos _ _ _ (by decide), List.length_append,
    List.length_singleton] at same
  have bound := ( List.rdropWhile_prefix isWhitespace front).length_le
  omega

/-- **What the normaliser returns it returns again, unless that ends in a space.** -/
theorem normaliseHost_again {raw host : String} {port : Option (Fin 65536)}
    (reading : normaliseHost raw = some (host, port)) :
    normaliseHost host = some (host, none) ↔ host.toList.getLast? ≠ some ' ' := by
  obtain ⟨plain, written, digits, whole, delimited, _, _, some, rfl⟩ := normaliseHost_iff.mp reading
  rw [String.toList_ofList]
  constructor
  · intro again ends
    obtain ⟨_, other, tail, whole', _, _, _, _, same⟩ := normaliseHost_iff.mp again
    have shorter := length_trim_lt ends
    have folded := congrArg List.length (String.ofList_injective same)
    rw [whole', List.length_append] at shorter
    have kept := ( List.rdropWhile_prefix (· = '.') (other.map Char.toLower)).length_le
    rw [← foldHost_rdropWhile, List.length_map] at kept
    omega
  · intro ends
    have plain' : ∀ character ∈ foldHost written, PrintableAscii character := by
      intro character member
      obtain ⟨own, mine, rfl⟩ := mem_foldHost member
      exact (plain own (by rw [whole]; exact List.mem_append_left _ mine)).lower
    have trimmed : trim (String.ofList (foldHost written)) = String.ofList (foldHost written) := by
      refine trim_clean (fun character first => ?_) fun character last => ?_
      · have member := List.mem_of_mem_head? first
        rw [← Bool.not_eq_true, (plain' character member).isWhitespace]
        rintro rfl
        obtain ⟨dots, lowered⟩ := foldHost_dots written
        have head : (written.map Char.toLower).head? = Option.some ' ' := by
          rw [lowered, List.head?_append, first]
          rfl
        rw [List.head?_map, Option.map_eq_some_iff] at head
        obtain ⟨own, head, lower⟩ := head
        rw [toLower_caseless (by decide)] at lower
        subst lower
        have begins : ' ' ∈ (trim raw).toList.head? := by
          rw [whole, List.head?_append, head]
          rfl
        exact absurd (head_trim begins) (by decide)
      · have member := List.mem_of_mem_getLast? last
        rw [← Bool.not_eq_true, (plain' character member).isWhitespace]
        rintro rfl
        exact ends last
    rw [normaliseHost_iff, trimmed, String.toList_ofList]
    exact ⟨plain', foldHost written, none, (List.append_nil _).symm, delimited.fold,
      (fun _ member => nomatch member), rfl, by rwa [foldHost_foldHost],
      by rw [foldHost_foldHost]⟩

end Renvor
