import Mathlib.Data.Bool.AllAny
import Mathlib.Data.List.TakeWhile
import Renvor.Foundation.Json

/-! # What is written is read again

The reader takes texts of the grammar that have no blanks between their tokens. Every text
that is written is one, and on these the reader stands for any reader of the grammar. Each
part is read back in front of whatever may follow it, by induction on the value that was
written.
-/

namespace Foundation.Json

/-! ## Numbers -/

/-- What a scanner takes off the front of a text are characters of a number. -/
def Takes (text rest : List Char) : Prop :=
  ∃ front, text = front ++ rest ∧ ∀ character ∈ front, isNumberPart character = true

/-- A scanner that takes nothing off the front leaves the text as it was. -/
theorem Takes.refl (text : List Char) : Takes text text :=
  ⟨[], rfl, fun _ member => (List.not_mem_nil member).elim⟩

/-- Two scanners run one after the other take the characters of a number off the front. -/
theorem Takes.trans {text middle rest : List Char} (first : Takes text middle)
    (second : Takes middle rest) : Takes text rest := by
  obtain ⟨front, rfl, parts⟩ := first
  obtain ⟨back, rfl, others⟩ := second
  refine ⟨front ++ back, (List.append_assoc front back rest).symm, fun character member => ?_⟩
  rcases List.mem_append.mp member with before | after
  · exact parts character before
  · exact others character after

/-- A scanner may take one more character in front, provided a number can hold it. -/
theorem Takes.cons {character : Char} {text rest : List Char} (part : isNumberPart character = true)
    (takes : Takes text rest) : Takes (character :: text) rest := by
  obtain ⟨front, rfl, parts⟩ := takes
  refine ⟨character :: front, rfl, fun other member => ?_⟩
  rcases List.mem_cons.mp member with rfl | later
  · exact part
  · exact parts other later

/-- Every decimal digit is one of the characters that a number can be written with. -/
theorem isNumberPart_digit {character : Char} (digit : isDigit character = true) :
    isNumberPart character = true := by
  simp [isNumberPart, digit]

/-- Skipping the digits at the front of a text takes only characters of a number. -/
theorem takes_digits (text : List Char) : Takes text (text.dropWhile isDigit) :=
  ⟨text.takeWhile isDigit, List.takeWhile_append_dropWhile.symm,
    fun _ member => isNumberPart_digit (List.mem_takeWhile_imp member)⟩

/-- A run of digits that is not empty takes only characters of a number, and every one of them. -/
theorem takes_afterDigits {text rest : List Char} (after : afterDigits text = some rest) :
    Takes text rest := by
  cases text with
  | nil => cases after
  | cons first more =>
      by_cases digit : isDigit first = true
      · rw [afterDigits, if_pos digit] at after
        cases after
        exact (takes_digits more).cons (isNumberPart_digit digit)
      · rw [afterDigits, if_neg digit] at after
        cases after

/-- The sign of an exponent, where one stands there, is a character of a number. -/
theorem takes_afterSign (text : List Char) : Takes text (afterSign text) := by
  unfold afterSign
  split
  · exact (Takes.refl _).cons (by decide)
  · exact (Takes.refl _).cons (by decide)
  · exact Takes.refl text

/-- The sign of a number, where one stands there, is a character of a number. -/
theorem takes_afterMinus (text : List Char) : Takes text (afterMinus text) := by
  unfold afterMinus
  split
  · exact (Takes.refl _).cons (by decide)
  · exact Takes.refl text

/-- The whole part of a number, a lone zero or its digits, is scanned as characters of a number. -/
theorem takes_afterWhole {text rest : List Char} (after : afterWhole text = some rest) :
    Takes text rest := by
  unfold afterWhole at after
  split at after
  · cases after
    exact (Takes.refl _).cons (by decide)
  · exact takes_afterDigits after

/-- The point of a number and the digits after it are scanned as characters of a number. -/
theorem takes_afterFraction {text rest : List Char} (after : afterFraction text = some rest) :
    Takes text rest := by
  unfold afterFraction at after
  split at after
  · exact (takes_afterDigits after).cons (by decide)
  · cases after
    exact Takes.refl text

/-- The mark of an exponent, its sign and its digits are scanned as characters of a number. -/
theorem takes_afterExponent {text rest : List Char} (after : afterExponent text = some rest) :
    Takes text rest := by
  unfold afterExponent at after
  split at after
  · exact ((takes_afterSign _).trans (takes_afterDigits after)).cons (by decide)
  · exact ((takes_afterSign _).trans (takes_afterDigits after)).cons (by decide)
  · cases after
    exact Takes.refl text

/-- A number is made of its characters. -/
theorem isNumber_parts {text : List Char} (wellFormed : isNumber text = true) :
    ∀ character ∈ text, isNumberPart character = true := by
  obtain ⟨second, whole, ends⟩ := Option.bind_eq_some_iff.mp (of_decide_eq_true wellFormed)
  obtain ⟨first, begins, fraction⟩ := Option.bind_eq_some_iff.mp whole
  obtain ⟨front, same, parts⟩ := (takes_afterMinus text).trans ((takes_afterWhole begins).trans
    ((takes_afterFraction fraction).trans (takes_afterExponent ends)))
  rw [List.append_nil] at same
  exact same ▸ parts

/-- The text of a number is not empty, so its first character tells the reader what it reads. -/
theorem isNumber_cons {text : List Char} (wellFormed : isNumber text = true) :
    ∃ first rest, text = first :: rest := by
  cases text with
  | nil => cases wellFormed
  | cons first rest => exact ⟨first, rest, rfl⟩

/-- What follows a value does not go on with a number. -/
def Ended (rest : List Char) : Prop := ∀ character ∈ rest.head?, isNumberPart character = false

/-- At the end of the whole text a number has ended. -/
theorem ended_nil : Ended [] := fun _ member => (Option.not_mem_none _ member).elim

/-- A number has ended where the next character is one that no number is written with. -/
theorem ended_cons {character : Char} (other : isNumberPart character = false) (rest : List Char) :
    Ended (character :: rest) := by
  intro first same
  cases same
  exact other

/-- A numeral is read back in front of any text in which no number would be continued. -/
theorem readNumber_append (numeral : Numeral) {rest : List Char} (ended : Ended rest) :
    readNumber (numeral.text ++ rest) = some (.number numeral, rest) := by
  have parts := isNumber_parts numeral.wellFormed
  have taken : (numeral.text ++ rest).takeWhile isNumberPart = numeral.text := by
    rw [List.takeWhile_append_of_pos parts]
    cases rest with
    | nil => exact List.append_nil _
    | cons first more =>
        rw [List.takeWhile_cons_of_neg (by rw [ended first rfl]; decide), List.append_nil]
  have left : (numeral.text ++ rest).dropWhile isNumberPart = rest := by
    rw [List.dropWhile_append_of_pos parts]
    cases rest with
    | nil => rfl
    | cons first more => rw [List.dropWhile_cons_of_neg (by rw [ended first rfl]; decide)]
  unfold readNumber
  simp only [taken, left, numeral.wellFormed, dite_true]

/-! ## Texts -/

/-- The sixteen digits that are written are read back as the numbers they stand for. -/
theorem hexValue_digit : ∀ digit < 16, hexValue (Nat.digitChar digit) = some digit := by
  decide

/-- A backslash and a letter that names a character are read as that one character. -/
theorem readText_letter {letter character : Char} (other : letter ≠ 'u')
    (named : unescape letter = some character) (rest : List Char) :
    readText ('\\' :: letter :: rest) =
      (readText rest).map fun (characters, rest) => (character :: characters, rest) := by
  rw [readText, named]
  · cases readText rest <;> rfl
  · exact fun _ _ _ _ _ same _ => other same

/-- A control character that was written by its code, in four digits, is read as that character. -/
theorem readText_code {first second : Nat} (high : first < 16) (low : second < 16)
    (rest : List Char) :
    readText ('\\' :: 'u' :: '0' :: '0' :: Nat.digitChar first :: Nat.digitChar second :: rest) =
      (readText rest).map fun (characters, rest) =>
        (Char.ofNat (16 * first + second) :: characters, rest) := by
  have small : 16 * first + second < 0xD800 := by omega
  have zero : hexValue '0' = some 0 := by decide
  have code : ofCode (256 * (16 * 0 + 0) + (16 * first + second)) =
      some (Char.ofNat (16 * first + second)) := by
    rw [ofCode, if_pos (.inl (by omega)), Nat.mul_zero, Nat.zero_add]
  rw [readText, zero, hexValue_digit first high, hexValue_digit second low]
  show ((ofCode (256 * (16 * 0 + 0) + (16 * first + second))).bind fun character =>
    (readText rest).bind fun (characters, rest) => some (character :: characters, rest)) = _
  rw [code]
  cases readText rest <;> rfl

/-- A character that needs no escape is read as itself, whatever stands after it in the string. -/
theorem readText_plain {character : Char} (quote : character ≠ '"') (back : character ≠ '\\')
    (printed : ¬character.toNat < 0x20) (rest : List Char) :
    readText (character :: rest) =
      (readText rest).map fun (characters, rest) => (character :: characters, rest) := by
  rw [readText, if_neg printed]
  · exact quote
  · exact fun _ _ _ _ _ same _ => back same
  · exact fun _ _ same _ => back same

/-- A character that is escaped is read again. -/
theorem readText_escape (character : Char) (rest : List Char) :
    readText (escape character ++ rest) =
      (readText rest).map fun (characters, rest) => (character :: characters, rest) := by
  unfold escape
  split_ifs with quote back backspace tab line form carriage control
  · subst quote
    exact readText_letter (by decide) rfl rest
  · subst back
    exact readText_letter (by decide) rfl rest
  · subst backspace
    exact readText_letter (by decide) rfl rest
  · subst tab
    exact readText_letter (by decide) rfl rest
  · subst line
    exact readText_letter (by decide) rfl rest
  · subst form
    exact readText_letter (by decide) rfl rest
  · subst carriage
    exact readText_letter (by decide) rfl rest
  · have read := readText_code (by omega : character.toNat / 16 < 16)
      (Nat.mod_lt character.toNat (by decide)) rest
    rw [Nat.div_add_mod, Char.ofNat_toNat] at read
    exact read
  · exact readText_plain quote back control rest

/-- The escapes of a string, up to its closing quote, are read back as its characters. -/
theorem readText_quote (characters rest : List Char) :
    readText (characters.flatMap escape ++ '"' :: rest) = some (characters, rest) := by
  induction characters with
  | nil => rfl
  | cons first more ih =>
      rw [List.flatMap_cons, List.append_assoc, readText_escape, ih]
      rfl

/-! ## Values -/

/-- A quoted string in front of a text, with its opening quote split off for the reader. -/
theorem quote_append (content : String) (rest : List Char) :
    quote content ++ rest = '"' :: (content.toList.flatMap escape ++ '"' :: rest) := by
  simp [quote]

/-- A comma ends the number before it, inside an array or between two members. -/
theorem ended_comma (rest : List Char) : Ended (',' :: rest) := ended_cons (by decide) rest

/-- A closing bracket ends the number that is the last item of an array. -/
theorem ended_bracket (rest : List Char) : Ended (']' :: rest) := ended_cons (by decide) rest

/-- A closing brace ends the number that is the value of the last member. -/
theorem ended_brace (rest : List Char) : Ended ('}' :: rest) := ended_cons (by decide) rest

/-- No value begins as an array ends. -/
theorem write_begins (value : Json) : ∃ first rest, write value = first :: rest ∧ first ≠ ']' := by
  cases value with
  | null => exact ⟨_, _, rfl, by decide⟩
  | bool value => cases value <;> exact ⟨_, _, rfl, by decide⟩
  | number numeral =>
      obtain ⟨first, rest, whole⟩ := isNumber_cons numeral.wellFormed
      refine ⟨first, rest, whole, ?_⟩
      rintro rfl
      have part := isNumber_parts numeral.wellFormed ']' (whole ▸ List.mem_cons_self)
      exact absurd part (by decide)
  | string content => exact ⟨_, _, rfl, by decide⟩
  | array items => exact ⟨_, _, rfl, by decide⟩
  | object members => exact ⟨_, _, rfl, by decide⟩

/-- A number is read where a value is. -/
theorem readValue_number (numeral : Numeral) (fuel : Nat) {rest : List Char} (ended : Ended rest) :
    readValue (fuel + 1) (numeral.text ++ rest) = some (.number numeral, rest) := by
  obtain ⟨first, more, whole⟩ := isNumber_cons numeral.wellFormed
  have part := isNumber_parts numeral.wellFormed first (whole ▸ List.mem_cons_self)
  rw [← readNumber_append numeral ended, whole, List.cons_append, readValue]
  all_goals
    intro _ same
    rw [(List.cons.inj same).1] at part
    exact absurd part (by decide)

/-- Parts are joined by a comma between each of them and the next. -/
theorem joined_cons (part next : List Char) (rest : List (List Char)) :
    joined (part :: next :: rest) = part ++ ',' :: joined (next :: rest) := rfl

/-- What is joined begins with its first part, which is the one the reader comes to first. -/
theorem joined_begins (part : List Char) (rest : List (List Char)) :
    ∃ more, joined (part :: rest) = part ++ more := by
  cases rest with
  | nil => exact ⟨[], (List.append_nil part).symm⟩
  | cons next rest => exact ⟨_, rfl⟩

/-- The items of an array in front of the reader: the first one, a comma, and the others. -/
theorem joined_items (item next : Json) (items : List Json) :
    joined (writeItems (item :: next :: items)) =
      write item ++ ',' :: joined (writeItems (next :: items)) := rfl

/-- A member as it is written. -/
def writeMember (member : String × Json) : List Char := quote member.1 ++ ':' :: write member.2

/-- The members of an object that has only one are written without a comma. -/
theorem joined_member (member : String × Json) :
    joined (writeMembers [member]) = writeMember member := rfl

/-- The members of an object in front of the reader: the first one, a comma, and the others. -/
theorem joined_members (member next : String × Json) (members : List (String × Json)) :
    joined (writeMembers (member :: next :: members)) =
      writeMember member ++ ',' :: joined (writeMembers (next :: members)) := rfl

/-- A member is written as its quoted name, a colon and its value, with nothing between them. -/
theorem writeMember_append (member : String × Json) (rest : List Char) :
    writeMember member ++ rest =
      '"' :: (member.1.toList.flatMap escape ++ '"' :: ':' :: (write member.2 ++ rest)) := by
  rw [writeMember, List.append_assoc, quote_append]
  rfl

/-- The name of a written member is read up to its colon, and its value is what remains. -/
theorem readName_write (member : String × Json) (rest : List Char) :
    readName (writeMember member ++ rest) = some (member.1, write member.2 ++ rest) := by
  rw [writeMember_append, readName, readText_quote]
  show some (String.ofList member.1.toList, _) = _
  rw [String.ofList_toList]

mutual

/-- A written value is read back in front of any text that ends a number, where the fuel is twice
its length. -/
theorem readValue_write (value : Json) (fuel : Nat) {rest : List Char} (ended : Ended rest)
    (enough : 2 * (write value).length ≤ fuel) :
    readValue fuel (write value ++ rest) = some (value, rest) := by
  obtain ⟨fuel, rfl⟩ : ∃ less, fuel = less + 1 := by
    obtain ⟨first, more, whole, _⟩ := write_begins value
    rw [whole, List.length_cons] at enough
    exact ⟨fuel - 1, by omega⟩
  cases value with
  | null => rfl
  | bool value => cases value <;> rfl
  | number numeral => exact readValue_number numeral fuel ended
  | string content =>
      rw [write, quote_append, readValue, readText_quote]
      show some (Json.string (String.ofList content.toList), rest) = _
      rw [String.ofList_toList]
  | array items =>
      cases items with
      | nil => rfl
      | cons item items =>
          have inner := readItems_write item items fuel rest (by
            rw [write, List.length_append, List.length_cons] at enough
            simp only [List.length_cons, List.length_nil] at enough
            omega)
          rw [write, List.cons_append, List.cons_append, List.append_assoc, List.singleton_append,
            readValue, inner]
          · rfl
          · intro _ same
            obtain ⟨first, more, whole, other⟩ := write_begins item
            obtain ⟨others, begins⟩ := joined_begins (write item) (writeItems items)
            rw [writeItems, begins, whole, List.cons_append, List.cons_append] at same
            exact other (List.cons.inj same).1
  | object members =>
      cases members with
      | nil => rfl
      | cons member members =>
          have inner := readMembers_write member members fuel rest (by
            rw [write, List.length_append, List.length_cons] at enough
            simp only [List.length_cons, List.length_nil] at enough
            omega)
          rw [write, List.cons_append, List.cons_append, List.append_assoc, List.singleton_append,
            readValue, inner]
          · rfl
          · intro _ same
            obtain ⟨others, begins⟩ := joined_begins (writeMember member) (writeMembers members)
            rw [show writeMembers (member :: members) = writeMember member :: writeMembers members
              from rfl, begins, List.append_assoc, writeMember_append] at same
            exact absurd (List.cons.inj same).1 (by decide)
termination_by fuel

/-- The items of a written array are read back in their order, up to the closing bracket. -/
theorem readItems_write (item : Json) (items : List Json) (fuel : Nat) (rest : List Char)
    (enough : 2 * (joined (writeItems (item :: items))).length + 1 ≤ fuel) :
    readItems fuel (joined (writeItems (item :: items)) ++ ']' :: rest) =
      some (item :: items, rest) := by
  obtain ⟨fuel, rfl⟩ : ∃ less, fuel = less + 1 := ⟨fuel - 1, by omega⟩
  cases items with
  | nil =>
      have inner := readValue_write item fuel (ended_bracket rest) (by
        rw [writeItems, writeItems, joined] at enough
        omega)
      rw [writeItems, writeItems, joined, readItems, inner]
      rfl
  | cons next items =>
      rw [joined_items, List.length_append, List.length_cons] at enough
      have first := readValue_write item fuel
        (ended_comma (joined (writeItems (next :: items)) ++ ']' :: rest)) (by omega)
      have inner := readItems_write next items fuel rest (by omega)
      rw [joined_items, List.append_assoc, List.cons_append, readItems, first]
      exact congrArg (Option.map _) inner
termination_by fuel

/-- The members of a written object are read back in their order, up to the closing brace. -/
theorem readMembers_write (member : String × Json) (members : List (String × Json)) (fuel : Nat)
    (rest : List Char)
    (enough : 2 * (joined (writeMembers (member :: members))).length + 1 ≤ fuel) :
    readMembers fuel (joined (writeMembers (member :: members)) ++ '}' :: rest) =
      some (member :: members, rest) := by
  obtain ⟨fuel, rfl⟩ : ∃ less, fuel = less + 1 := ⟨fuel - 1, by omega⟩
  cases members with
  | nil =>
      rw [joined_member, writeMember, List.length_append, List.length_cons] at enough
      have inner := readValue_write member.2 fuel (ended_brace rest) (by omega)
      rw [joined_member, readMembers, readName_write]
      dsimp only
      rw [inner]
      rfl
  | cons next members =>
      rw [joined_members, writeMember, List.length_append, List.length_append, List.length_cons,
        List.length_cons] at enough
      have first := readValue_write member.2 fuel
        (ended_comma (joined (writeMembers (next :: members)) ++ '}' :: rest)) (by omega)
      have inner := readMembers_write next members fuel rest (by omega)
      rw [joined_members, List.append_assoc, List.cons_append, readMembers, readName_write]
      dsimp only
      rw [first]
      exact congrArg (Option.map _) inner
termination_by fuel

end

/-- **What is written is read again.** -/
theorem read_write (value : Json) : read (write value) = some value := by
  have whole := readValue_write value (2 * (write value).length) ended_nil le_rfl
  rw [List.append_nil] at whole
  rw [read, whole]

/-! ## No line breaks -/

/-- An escape is written without control characters, those it stands for being given by their
codes. -/
theorem escape_printed (character : Char) : ∀ written ∈ escape character, 0x20 ≤ written.toNat := by
  unfold escape
  split_ifs with quote back backspace tab line form carriage control
  · exact List.all_iff_forall_prop.mp rfl
  · exact List.all_iff_forall_prop.mp rfl
  · exact List.all_iff_forall_prop.mp rfl
  · exact List.all_iff_forall_prop.mp rfl
  · exact List.all_iff_forall_prop.mp rfl
  · exact List.all_iff_forall_prop.mp rfl
  · exact List.all_iff_forall_prop.mp rfl
  · have digits : ∀ digit < 16, 0x20 ≤ (Nat.digitChar digit).toNat := by decide
    have front : ∀ written ∈ ['\\', 'u', '0', '0'], 0x20 ≤ written.toNat :=
      List.all_iff_forall_prop.mp rfl
    intro written member
    rw [show ['\\', 'u', '0', '0', Nat.digitChar (character.toNat / 16),
        Nat.digitChar (character.toNat % 16)] = ['\\', 'u', '0', '0'] ++
        [Nat.digitChar (character.toNat / 16), Nat.digitChar (character.toNat % 16)] from rfl,
      List.mem_append] at member
    rcases member with fixed | digit
    · exact front written fixed
    · rcases List.mem_cons.mp digit with rfl | last
      · exact digits _ (by omega)
      · cases List.mem_singleton.mp last
        exact digits _ (Nat.mod_lt _ (by decide))
  · intro written member
    cases List.mem_singleton.mp member
    exact Nat.le_of_not_lt control

/-- A quoted string is written without control characters, whatever characters it has. -/
theorem quote_printed (content : String) : ∀ written ∈ quote content, 0x20 ≤ written.toNat := by
  intro written member
  rw [quote, List.cons_append, List.mem_cons, List.mem_append, List.mem_flatMap,
    List.mem_singleton] at member
  rcases member with rfl | ⟨character, _, held⟩ | rfl
  · decide
  · exact escape_printed character written held
  · decide

/-- The text of a number has none but the characters of numbers, and so no control character. -/
theorem numeral_printed (numeral : Numeral) : ∀ written ∈ numeral.text, 0x20 ≤ written.toNat := by
  intro written member
  have part := isNumber_parts numeral.wellFormed written member
  simp only [isNumberPart, isDigit, Bool.or_eq_true, Bool.and_eq_true, decide_eq_true_eq] at part
  rcases part with ((((digit | rfl) | rfl) | rfl) | rfl) | rfl
  · exact le_trans (by decide) (show '0'.toNat ≤ written.toNat from digit.1)
  all_goals decide

/-- Joining parts that have no control characters by commas brings none in. -/
theorem joined_printed {parts : List (List Char)}
    (printed : ∀ part ∈ parts, ∀ written ∈ part, 0x20 ≤ written.toNat) :
    ∀ written ∈ joined parts, 0x20 ≤ written.toNat := by
  induction parts with
  | nil => exact fun written member => (List.not_mem_nil member).elim
  | cons part rest ih =>
      cases rest with
      | nil => exact printed part List.mem_cons_self
      | cons next rest =>
          intro written member
          rw [joined_cons, List.mem_append, List.mem_cons] at member
          rcases member with first | rfl | later
          · exact printed part List.mem_cons_self written first
          · decide
          · exact ih (fun part member => printed part (List.mem_cons_of_mem _ member)) written later

/-- Joined parts between their brackets have no control characters where the parts have none. -/
theorem surround_printed {parts : List (List Char)} {opening closing : Char}
    (opens : 0x20 ≤ opening.toNat) (closes : 0x20 ≤ closing.toNat)
    (printed : ∀ part ∈ parts, ∀ written ∈ part, 0x20 ≤ written.toNat) :
    ∀ written ∈ opening :: joined parts ++ [closing], 0x20 ≤ written.toNat := by
  intro written member
  rw [List.cons_append, List.mem_cons, List.mem_append, List.mem_singleton] at member
  rcases member with rfl | inside | rfl
  · exact opens
  · exact joined_printed printed written inside
  · exact closes

mutual

/-- A value is written without control characters. -/
theorem write_printed (value : Json) : ∀ written ∈ write value, 0x20 ≤ written.toNat :=
  match value with
  | .null => List.all_iff_forall_prop.mp rfl
  | .bool true => List.all_iff_forall_prop.mp rfl
  | .bool false => List.all_iff_forall_prop.mp rfl
  | .number numeral => numeral_printed numeral
  | .string content => quote_printed content
  | .array items => surround_printed (by decide) (by decide) (writeItems_printed items)
  | .object members => surround_printed (by decide) (by decide) (writeMembers_printed members)

/-- Each item of an array is written without control characters, by induction on the items. -/
theorem writeItems_printed (items : List Json) :
    ∀ part ∈ writeItems items, ∀ written ∈ part, 0x20 ≤ written.toNat :=
  match items with
  | [] => fun part member => (List.not_mem_nil member).elim
  | item :: rest => by
      intro part member
      rcases List.mem_cons.mp member with rfl | later
      · exact write_printed item
      · exact writeItems_printed rest part later

/-- Each member of an object is written without control characters, its name and its value. -/
theorem writeMembers_printed (members : List (String × Json)) :
    ∀ part ∈ writeMembers members, ∀ written ∈ part, 0x20 ≤ written.toNat :=
  match members with
  | [] => fun part member => (List.not_mem_nil member).elim
  | member :: rest => by
      intro part held written inside
      rcases List.mem_cons.mp held with rfl | later
      · rw [List.mem_append, List.mem_cons] at inside
        rcases inside with name | rfl | value
        · exact quote_printed member.1 written name
        · decide
        · exact write_printed member.2 written value
      · exact writeMembers_printed rest part later written inside

end

/-- **A value is written on one line.** -/
theorem newline_write (value : Json) : '\n' ∉ write value := fun member =>
  absurd (write_printed value '\n' member) (by decide)

end Foundation.Json
