import Mathlib.Tactic.Common

/-! # Text functions of the standard library -/

namespace Renvor

/-- The `White_Space` property. -/
def isWhitespace (character : Char) : Bool :=
  let code := character.toNat
  9 ≤ code && code ≤ 13 || code = 0x20 || code = 0x85 || code = 0xA0 || code = 0x1680 ||
    0x2000 ≤ code && code ≤ 0x200A || code = 0x2028 || code = 0x2029 || code = 0x202F ||
    code = 0x205F || code = 0x3000

/-- The `Cc` category. -/
def isControl (character : Char) : Bool :=
  character.toNat < 0x20 || 0x7F ≤ character.toNat && character.toNat ≤ 0x9F

def isAscii (character : Char) : Bool := character.toNat < 0x80

def isAsciiDigit (character : Char) : Bool := '0' ≤ character && character ≤ '9'

/-- The characters without those around them that are stripped. -/
def strip (stripped : Char → Bool) (text : List Char) : List Char :=
  ((text.dropWhile stripped).reverse.dropWhile stripped).reverse

/-- The text without the blanks around it. -/
def trim (text : String) : String :=
  String.ofList ((text.toList.dropWhile isWhitespace).reverse.dropWhile isWhitespace).reverse

/-- The same text, letters of the alphabet in either case. -/
def eqIgnoreAsciiCase (left right : String) : Bool :=
  left.toList.map Char.toLower = right.toList.map Char.toLower

/-- The characters before and after the first occurrence of some others. -/
def splitOnce (separator : List Char) : List Char → Option (List Char × List Char)
  | [] => if separator.isEmpty then some ([], []) else none
  | character :: rest =>
      if separator.isPrefixOf (character :: rest) then
        some ([], (character :: rest).drop separator.length)
      else (splitOnce separator rest).map fun (front, back) => (character :: front, back)

/-- The text before a suffix it ends in. -/
def stripSuffix (ending text : List Char) : Option (List Char) :=
  if ending.isSuffixOf text then some (text.take (text.length - ending.length)) else none

variable {separator text front back : List Char}

theorem stripSuffix_some {ending : List Char} :
    stripSuffix ending text = some front ↔ text = front ++ ending := by
  unfold stripSuffix
  constructor
  · intro stripped
    split at stripped
    next ends =>
      obtain ⟨before, rfl⟩ := List.isSuffixOf_iff_suffix.mp ends
      rw [List.length_append, Nat.add_sub_cancel, List.take_left'] at stripped
      · cases stripped
        rfl
      · rfl
    next => cases stripped
  · rintro rfl
    rw [if_pos (List.isSuffixOf_iff_suffix.mpr (List.suffix_append front ending)),
      List.length_append, Nat.add_sub_cancel, List.take_left' rfl]

theorem dropWhile_none {stripped : Char → Bool}
    (clean : ∀ character ∈ text, stripped character = false) : text.dropWhile stripped = text := by
  cases text with
  | nil => rfl
  | cons first rest =>
      have kept : stripped first = false := clean first List.mem_cons_self
      rw [List.dropWhile_cons_of_neg (by simp [kept])]

/-- A text with nothing in it to strip stays. -/
theorem strip_none {stripped : Char → Bool} (clean : ∀ character ∈ text, stripped character = false) :
    strip stripped text = text := by
  have back : ∀ character ∈ text.reverse, stripped character = false :=
    fun character member => clean character (List.mem_reverse.mp member)
  rw [strip, dropWhile_none clean, dropWhile_none back, List.reverse_reverse]

/-- What is stripped at both ends leaves what is between. -/
theorem strip_surrounded {stripped : Char → Bool} {mark : Char} (marks : stripped mark = true)
    (clean : ∀ character ∈ text, stripped character = false) :
    strip stripped (mark :: text ++ [mark]) = text := by
  cases text with
  | nil => simp [strip, marks]
  | cons first rest =>
      have kept : stripped first = false := clean first List.mem_cons_self
      have ended : (mark :: (rest.reverse ++ [first])).dropWhile stripped =
          (rest.reverse ++ [first]).dropWhile stripped := by
        rw [List.dropWhile_cons_of_pos marks]
      have inner := strip_none clean
      unfold strip at inner ⊢
      rw [List.dropWhile_cons_of_neg (by simp [kept])] at inner
      rw [List.cons_append, List.dropWhile_cons_of_pos marks, List.cons_append,
        List.dropWhile_cons_of_neg (by simp [kept])]
      simp only [List.reverse_cons, List.reverse_append, List.reverse_nil, List.nil_append,
        List.cons_append] at inner ⊢
      rw [ended]
      exact inner

/-- The parts make the text. -/
theorem splitOnce_some (split : splitOnce separator text = some (front, back)) :
    text = front ++ separator ++ back := by
  induction text generalizing front with
  | nil =>
      unfold splitOnce at split
      split at split
      next empty =>
        cases split
        rw [List.isEmpty_iff.mp empty]
        rfl
      next => cases split
  | cons character rest ih =>
      unfold splitOnce at split
      split at split
      next first =>
        cases split
        obtain ⟨back, whole⟩ := List.isPrefixOf_iff_prefix.mp first
        rw [← whole, List.drop_left]
        rfl
      next =>
        obtain ⟨⟨before, after⟩, rest', ends⟩ := Option.map_eq_some_iff.mp split
        cases ends
        rw [ih rest']
        rfl

/-- A text splits at the first of its separators. -/
theorem splitOnce_cons {mark : Char} (absent : mark ∉ front) :
    splitOnce [mark] (front ++ mark :: back) = some (front, back) := by
  induction front with
  | nil =>
      show splitOnce [mark] (mark :: back) = _
      unfold splitOnce
      rw [if_pos (by simp)]
      rfl
  | cons character rest ih =>
      rw [List.mem_cons, not_or] at absent
      obtain ⟨different, absent⟩ := absent
      show splitOnce [mark] (character :: (rest ++ mark :: back)) = _
      unfold splitOnce
      rw [if_neg (by simpa using different), ih absent]
      rfl

/-- A text splits at the first of its separators only. -/
theorem splitOnce_first {mark : Char} (split : splitOnce [mark] text = some (front, back)) :
    text = front ++ mark :: back ∧ mark ∉ front := by
  refine ⟨by simpa using splitOnce_some split, ?_⟩
  induction text generalizing front with
  | nil => cases split
  | cons character rest ih =>
      unfold splitOnce at split
      split at split
      next first =>
        cases split
        exact List.not_mem_nil
      next different =>
        obtain ⟨⟨before, after⟩, rest', ends⟩ := Option.map_eq_some_iff.mp split
        cases ends
        rw [List.mem_cons, not_or]
        refine ⟨?_, ih rest'⟩
        rintro rfl
        exact different (by simp)

/-- A text without the separator does not split. -/
theorem splitOnce_none {mark : Char} : splitOnce [mark] text = none ↔ mark ∉ text := by
  constructor
  · intro whole member
    obtain ⟨front, back, rfl, absent⟩ := List.eq_append_cons_of_mem member
    rw [splitOnce_cons absent] at whole
    cases whole
  · intro absent
    cases split : splitOnce [mark] text with
    | none => rfl
    | some parts =>
        obtain ⟨rfl, _⟩ := splitOnce_first split
        exact (absent (by simp)).elim

/-- Text of one-byte characters is as long in bytes. -/
theorem utf8ByteSize_ofList
    (single : ∀ character ∈ text, character.utf8Size = 1) :
    (String.ofList text).utf8ByteSize = text.length := by
  induction text with
  | nil => rfl
  | cons first rest ih =>
      rw [String.ofList_cons, String.utf8ByteSize_append, String.utf8ByteSize_singleton,
        single first List.mem_cons_self,
        ih fun character member => single character (List.mem_cons_of_mem first member),
        List.length_cons, Nat.add_comm]

end Renvor
