import Renvor.Kernel.ErrorContext

/-! # What a configuration error can say

A text that is bounded is within its ceiling, cut between characters, and bounded already
(`Renvor.ErrorContext.boundedTo_some`). A decoder's report of a value says nothing of the value
(`Renvor.ErrorContext.Constraint.fromDecoder_hides`).
-/

namespace Renvor.ErrorContext

theorem byteLength_append (front back : List Char) :
    byteLength (front ++ back) = byteLength front + byteLength back := by
  simp [byteLength]

theorem byteLength_cons (first : Char) (rest : List Char) :
    byteLength (first :: rest) = first.utf8Size + byteLength rest := by
  simp [byteLength]

/-! ## Cutting -/

/-- A boundary is where a text's first characters end. -/
theorem sliceTo_boundary {text : List Char} {cut : Nat} (boundary : isCharBoundary text cut = true) :
    ∃ kept rest, text = kept ++ rest ∧ sliceTo text cut = some kept ∧ byteLength kept = cut := by
  induction text generalizing cut with
  | nil =>
      cases cut with
      | zero => exact ⟨[], [], rfl, rfl, rfl⟩
      | succ cut => cases boundary
  | cons first text ih =>
      cases cut with
      | zero => exact ⟨[], first :: text, rfl, rfl, rfl⟩
      | succ cut =>
          rw [isCharBoundary, Bool.and_eq_true, decide_eq_true_eq] at boundary
          obtain ⟨kept, rest, rfl, slice, length⟩ := ih boundary.2
          refine ⟨first :: kept, rest, rfl, ?_, ?_⟩
          · rw [sliceTo, if_pos boundary.1, slice]
            rfl
          · rw [byteLength_cons, length]
            omega

theorem boundaryBefore_le (text : List Char) (index : Nat) :
    boundaryBefore text index ≤ index ∧
      isCharBoundary text (boundaryBefore text index) = true := by
  induction index with
  | zero => exact ⟨Nat.le_refl 0, by cases text <;> rfl⟩
  | succ cut ih =>
      rw [boundaryBefore]
      split
      next here => exact ⟨Nat.le_refl _, here⟩
      next => exact ⟨ih.1.trans (Nat.le_succ cut), ih.2⟩

theorem byteLength_single {text : List Char} (single : ∀ character ∈ text, character.utf8Size = 1) :
    byteLength text = text.length := by
  induction text with
  | nil => rfl
  | cons first text ih =>
      rw [byteLength_cons, single first List.mem_cons_self,
        ih fun character member => single character (List.mem_cons_of_mem first member),
        List.length_cons, Nat.add_comm]

theorem byteLength_digits (digits : Nat) {number : Nat} (small : number < 10 ^ digits)
    (some : 0 < digits) : byteLength (Nat.toDigits 10 number) ≤ digits := by
  have single : ∀ character ∈ Nat.toDigits 10 number, character.utf8Size = 1 := by
    intro character member
    have digit := Nat.isDigit_of_mem_toDigits (by decide) (Nat.le_refl 10) member
    rw [Char.utf8Size_eq_one_iff]
    simp only [Char.isDigit, Bool.and_eq_true, decide_eq_true_eq] at digit
    exact UInt32.le_trans digit.2 (by decide)
  rw [byteLength_single single]
  exact (Nat.length_toDigits_le_iff (by decide) some).mpr small

theorem byteLength_notice (bytes : Nat) :
    byteLength (notice bytes) = byteLength (Nat.toDigits 10 bytes) + 31 := by
  have front : byteLength "… (truncated; ".toList = 16 := by decide +kernel
  have back : byteLength " bytes in full)".toList = 15 := by decide +kernel
  unfold notice
  rw [byteLength_append, byteLength_append]
  omega

/-- **What bounding makes of a text.** -/
structure Bounded (ceiling : Nat) (raw bounded : List Char) : Prop where
  fits : byteLength bounded ≤ ceiling
  cut : bounded = raw ∨
    ∃ kept rest, raw = kept ++ rest ∧ bounded = kept ++ notice (byteLength raw)
  again : boundedTo bounded ceiling = some bounded

/-- **A text is bounded**, and no cut is inside a character. -/
theorem boundedTo_some {raw : List Char} {ceiling : Nat} (counted : byteLength raw < 10 ^ 40)
    (room : 71 ≤ ceiling) : ∃ bounded, boundedTo raw ceiling = some bounded ∧
      Bounded ceiling raw bounded := by
  by_cases fits : byteLength raw ≤ ceiling
  · have whole : boundedTo raw ceiling = some raw := if_pos fits
    exact ⟨raw, whole, fits, .inl rfl, whole⟩
  · obtain ⟨before, boundary⟩ := boundaryBefore_le raw
      (min (ceiling - byteLength (notice (byteLength raw))) (byteLength raw))
    obtain ⟨kept, rest, whole, slice, length⟩ := sliceTo_boundary boundary
    have digits := byteLength_digits 40 counted (by decide)
    have short := byteLength_notice (byteLength raw)
    clear counted
    have within : byteLength (kept ++ notice (byteLength raw)) ≤ ceiling := by
      rw [byteLength_append, length]
      omega
    refine ⟨kept ++ notice (byteLength raw), ?_, within, .inr ⟨kept, rest, whole, rfl⟩,
      if_pos within⟩
    rw [boundedTo, if_neg fits]
    simp only [slice, Option.map_some]

/-! ## The separator of a decoder -/

/-- A separator whose first mark stands in it once is not found across its end. -/
theorem rsplitOnce_inside {mark : Char} {tail inside back : List Char} (once : mark ∉ inside) :
    rsplitOnce (mark :: tail) (inside ++ back) =
      (rsplitOnce (mark :: tail) back).map fun parts => (inside ++ parts.1, parts.2) := by
  induction inside with
  | nil => simp
  | cons first inside ih =>
      rw [List.mem_cons, not_or] at once
      rw [List.cons_append, rsplitOnce, ih once.2]
      cases rsplitOnce (mark :: tail) back with
      | some parts => rfl
      | none => simp [once.1]

/-- The last separator is the one that is written, or one after it. -/
theorem rsplitOnce_last {mark : Char} {tail front back : List Char} (once : mark ∉ tail) :
    (rsplitOnce (mark :: tail) (front ++ (mark :: tail ++ back))).map Prod.snd =
      some (((rsplitOnce (mark :: tail) back).map Prod.snd).getD back) := by
  induction front with
  | nil =>
      rw [List.nil_append, List.cons_append, rsplitOnce, rsplitOnce_inside once]
      cases rsplitOnce (mark :: tail) back with
      | some parts => rfl
      | none => simp
  | cons first front ih =>
      obtain ⟨parts, found, same⟩ := Option.map_eq_some_iff.mp ih
      rw [List.cons_append, rsplitOnce, found]
      exact congrArg some same

theorem rsplitOnce_some {separator text front back : List Char}
    (found : rsplitOnce separator text = some (front, back)) :
    text = front ++ separator ++ back := by
  induction text generalizing front with
  | nil =>
      unfold rsplitOnce at found
      split at found
      next empty =>
        cases found
        rw [List.isEmpty_iff.mp empty]
        rfl
      next => cases found
  | cons character rest ih =>
      unfold rsplitOnce at found
      split at found
      next before after later =>
        cases found
        rw [ih later]
        rfl
      next =>
        split at found
        next here =>
          cases found
          obtain ⟨back, whole⟩ := List.isPrefixOf_iff_prefix.mp here
          rw [← whole, List.drop_left]
          rfl
        next => cases found

/-! ## Reports of a decoder -/

/-- Names as a decoder lists them. -/
def oneOf : List (List Char) → List Char
  | [] => []
  | [only] => '`' :: only ++ ['`']
  | [first, second] => '`' :: first ++ "` or `".toList ++ second ++ ['`']
  | names => "one of ".toList ++
      List.intercalate ", ".toList (names.map fun name => '`' :: name ++ ['`'])

/-- A decoder's report of a value: of another type, not allowed, or no variant. -/
inductive DecoderReport
  | invalidType (expected : List Char)
  | invalidValue (expected : List Char)
  | unknownVariant (names : List (List Char))

/-- The report's text, with the value as it is quoted. -/
def DecoderReport.text (input : List Char) : DecoderReport → List Char
  | invalidType expected => "invalid type: ".toList ++ input ++ ", expected ".toList ++ expected
  | invalidValue expected => "invalid value: ".toList ++ input ++ ", expected ".toList ++ expected
  | unknownVariant [] =>
      "unknown variant `".toList ++ input ++ "`, there are no variants".toList
  | unknownVariant names =>
      "unknown variant `".toList ++ input ++ "`, expected ".toList ++ oneOf names

namespace Constraint

/-- A constraint of a message is of the fragment after its last separator. -/
theorem fromDecoder_fragment {message : List Char} {found : Text}
    (value : (keyOnlyPrefixes.any fun front => front.toList.isPrefixOf message) = false) :
    fromDecoder message found =
      match ((rsplitOnce separator message).map Prod.snd).filter isTypeDescription with
      | none => some (.wrongShape found declaredType)
      | some expected =>
          (Text.held ("found ".toList ++ found.characters ++ ", expected ".toList ++
            expected)).map .decoder := by
  unfold fromDecoder
  rw [value, if_neg Bool.false_ne_true]
  cases rsplitOnce separator message with
  | none => rfl
  | some parts =>
      by_cases type : isTypeDescription parts.2 = true
      · simp only [Option.filter, type, Option.map_some, if_true]
      · simp only [Option.filter, type, Option.map_some, if_false, Bool.false_eq_true]

/-- A fragment with a backtick is no type's name. -/
theorem not_typeDescription {fragment : List Char} (member : '`' ∈ fragment) :
    isTypeDescription fragment = false := by
  rw [← Bool.not_eq_true]
  intro type
  simp only [isTypeDescription, Bool.and_eq_true, List.all_eq_true] at type
  exact absurd (type.2 _ member) (by decide)

theorem once_separator : ',' ∉ " expected ".toList := by decide

/-- The fragment of a message that ends in the separator and a type. -/
theorem fragment_expected (front expected : List Char) :
    (rsplitOnce separator (front ++ ", expected ".toList ++ expected)).map Prod.snd =
      some (((rsplitOnce separator expected).map Prod.snd).getD expected) := by
  rw [List.append_assoc]
  exact rsplitOnce_last once_separator

/-- No separator begins after a value that is no variant. -/
theorem marked_back (front back body : List Char)
    (whole : body ++ "`, there are no variants".toList = front ++ separator ++ back) :
    '`' ∈ back := by
  have tail : "`, there are no variants".toList = '`' :: ", there are no variants".toList := by
    decide
  rw [tail] at whole
  rcases List.append_eq_append_iff.mp whole with ⟨over', rest, ends⟩ | ⟨over', _, ends⟩
  · cases over' with
    | nil =>
        rw [List.nil_append] at ends
        rw [← ends]
        exact List.mem_cons_self
    | cons mark more =>
        obtain ⟨rfl, within⟩ := List.cons.inj ends
        have early : 'x' ∉ more := by
          intro member
          have late : 'x' ∈ ", there are no variants".toList := by
            rw [within]
            exact List.mem_append_left _ member
          exact absurd late (by decide)
        rcases List.append_eq_append_iff.mp rest with ⟨again, _, own⟩ | ⟨again, _, own⟩
        · have member : '`' ∈ separator := by
            rw [own]
            exact List.mem_append_right _ List.mem_cons_self
          exact absurd member (by decide)
        · have member : 'x' ∈ '`' :: more := by
            rw [own]
            exact List.mem_append_right _ (by decide)
          exact absurd ((List.mem_cons.mp member).resolve_left (by decide)) early
  · rw [ends]
    exact List.mem_append_right _ List.mem_cons_self

theorem report_value (report : DecoderReport) (input : List Char) :
    (keyOnlyPrefixes.any fun front => front.toList.isPrefixOf (report.text input)) = false := by
  cases report with
  | invalidType expected => rfl
  | invalidValue expected => rfl
  | unknownVariant names => cases names <;> rfl

/-- **A report says nothing of the value it quotes.** -/
theorem fromDecoder_hides (report : DecoderReport) (first second : List Char) (found : Text) :
    fromDecoder (report.text first) found = fromDecoder (report.text second) found := by
  rw [fromDecoder_fragment (report_value report first),
    fromDecoder_fragment (report_value report second)]
  suffices same : ((rsplitOnce separator (report.text first)).map Prod.snd).filter
      isTypeDescription =
        ((rsplitOnce separator (report.text second)).map Prod.snd).filter isTypeDescription by
    rw [same]
  cases report with
  | invalidType expected =>
      show ((rsplitOnce separator (_ ++ ", expected ".toList ++ expected)).map Prod.snd).filter _ =
        ((rsplitOnce separator (_ ++ ", expected ".toList ++ expected)).map Prod.snd).filter _
      rw [fragment_expected, fragment_expected]
  | invalidValue expected =>
      show ((rsplitOnce separator (_ ++ ", expected ".toList ++ expected)).map Prod.snd).filter _ =
        ((rsplitOnce separator (_ ++ ", expected ".toList ++ expected)).map Prod.snd).filter _
      rw [fragment_expected, fragment_expected]
  | unknownVariant names =>
      cases names with
      | nil =>
          -- what is left of the message holds a backtick, whatever the value holds
          have discarded : ∀ input, ((rsplitOnce separator
              ("unknown variant `".toList ++ input ++ "`, there are no variants".toList)).map
                Prod.snd).filter isTypeDescription = none := by
            intro input
            cases found : rsplitOnce separator ("unknown variant `".toList ++ input ++
                "`, there are no variants".toList) with
            | none => rfl
            | some parts =>
                have inside := marked_back parts.1 parts.2 _ (rsplitOnce_some found)
                simp only [Option.map_some, Option.filter, not_typeDescription inside]
                rfl
          exact (discarded first).trans (discarded second).symm
      | cons name names =>
          have marked : ∀ input, DecoderReport.text input (.unknownVariant (name :: names)) =
              ("unknown variant `".toList ++ input ++ ['`']) ++ ", expected ".toList ++
                oneOf (name :: names) := by
            intro input
            have mark : "`, expected ".toList = ['`'] ++ ", expected ".toList := by decide
            show "unknown variant `".toList ++ input ++ "`, expected ".toList ++ _ = _
            rw [mark]
            simp only [List.append_assoc]
          rw [marked first, marked second, fragment_expected, fragment_expected]

theorem byteLength_count (count : UInt64) : byteLength (Nat.toDigits 10 count.toNat) ≤ 20 :=
  byteLength_digits 20 (Nat.lt_trans count.toNat_lt (by norm_num)) (by decide)

theorem byteLength_signed (value : BitVec 128) : byteLength (signed value.toInt) ≤ 40 := by
  have small : value.toInt.natAbs < 10 ^ 39 := by
    have low := BitVec.le_toInt value
    have high : value.toInt < 2 ^ 127 := BitVec.toInt_lt
    norm_num at low high ⊢
    omega
  have digits := byteLength_digits 39 small (by decide)
  unfold signed
  split
  next =>
    rw [byteLength_cons]
    have sign : '-'.utf8Size = 1 := by decide
    clear small
    omega
  next => exact digits.trans (by decide)

theorem lt_counted {length : Nat} (small : length ≤ 300) : length < 2 ^ 64 + 2 ^ 64 + 300 :=
  Nat.lt_of_le_of_lt small (by norm_num)

/-- Words with a number between them. -/
theorem byteLength_words {front back : String} {number : List Char} {length : Nat}
    (words : byteLength front.toList + byteLength back.toList ≤ 200)
    (digits : byteLength number ≤ length) (short : length ≤ 100) :
    byteLength (front.toList ++ number ++ back.toList) < 2 ^ 64 + 2 ^ 64 + 300 := by
  refine lt_counted ?_
  rw [byteLength_append, byteLength_append]
  generalize byteLength front.toList = first at words
  generalize byteLength back.toList = last at words
  omega

/-- Words with two texts between them. -/
theorem byteLength_between (first second third : String) {left right : List Char} {length : Nat}
    (words : byteLength first.toList + byteLength second.toList + byteLength third.toList ≤ 200)
    (texts : byteLength left + byteLength right < length) :
    byteLength (first.toList ++ left ++ second.toList ++ right ++ third.toList) < length + 200 := by
  simp only [byteLength_append]
  omega

/-- A constraint says as much as two texts and some words at most. -/
theorem byteLength_describe (constraint : Constraint) :
    byteLength constraint.describe < 2 ^ 64 + 2 ^ 64 + 300 := by
  cases constraint with
  | missing => exact lt_counted (by decide +kernel)
  | wrongShape found expected =>
      have texts := Nat.add_lt_add found.counted expected.counted
      have none : "".toList = [] := rfl
      have whole := byteLength_between "found " ", expected " "" (by decide +kernel) texts
      rw [none, List.append_nil] at whole
      exact whole.trans (by norm_num)
  | outOfRange minimum maximum =>
      have texts := Nat.add_le_add (byteLength_signed minimum) (byteLength_signed maximum)
      have whole := byteLength_between "must be between " " and " " inclusive" (by decide +kernel)
        (Nat.lt_succ_of_le texts)
      exact whole.trans (by norm_num)
  | tooShort minimum =>
      exact byteLength_words (by decide +kernel) (byteLength_count minimum) (by decide)
  | tooLong maximum =>
      exact byteLength_words (by decide +kernel) (byteLength_count maximum) (by decide)
  | tooLarge maximumBytes =>
      exact byteLength_words (by decide +kernel) (byteLength_count maximumBytes) (by decide)
  | tooDeep maximumDepth =>
      exact byteLength_words (by decide +kernel) (byteLength_count maximumDepth) (by decide)
  | rule text => exact Nat.lt_of_lt_of_le text.counted (by norm_num)
  | decoder report => exact Nat.lt_of_lt_of_le report.counted (by norm_num)

end Constraint

/-! ## Errors -/

theorem boundedIdentifier_some (raw : Text) :
    ∃ bounded, boundedIdentifier raw.characters = some bounded ∧
      Bounded maxIdentifierBytes raw.characters bounded :=
  boundedTo_some (Nat.lt_trans raw.counted (by norm_num)) (by decide)

theorem boundedConstraint_some (constraint : Constraint) :
    ∃ bounded, boundedConstraint constraint.describe = some bounded ∧
      Bounded maxConstraintBytes constraint.describe bounded :=
  boundedTo_some (Nat.lt_trans constraint.byteLength_describe (by norm_num)) (by decide)

/-- **What a configuration error holds.** A report leaves the same error whatever value
it quotes; the key, the layers and the constraint of every error are bounded, cut between
characters, and bounded already. -/
theorem configuration_errors :
    (∀ (report : DecoderReport) (first second : List Char) (found key layer expectedType : Text),
      (Constraint.fromDecoder (report.text first) found).bind
          (configuration key layer expectedType) =
        (Constraint.fromDecoder (report.text second) found).bind
          (configuration key layer expectedType)) ∧
    (∀ (key layer expectedType : Text) (constraint : Constraint),
      ∃ key' constraint' layer', configuration key layer expectedType constraint =
          some (.configuration key' constraint' layer' expectedType) ∧
        Bounded maxIdentifierBytes key.characters key' ∧
        Bounded maxConstraintBytes constraint.describe constraint' ∧
        Bounded maxIdentifierBytes layer.characters layer') ∧
    ∀ key firstLayer firstShape secondLayer secondShape : Text,
      ∃ key' firstLayer' secondLayer',
        conflict key firstLayer firstShape secondLayer secondShape =
          some (.conflict key' firstLayer' firstShape secondLayer' secondShape) ∧
        Bounded maxIdentifierBytes key.characters key' ∧
        Bounded maxIdentifierBytes firstLayer.characters firstLayer' ∧
        Bounded maxIdentifierBytes secondLayer.characters secondLayer' := by
  refine ⟨?_, ?_, ?_⟩
  · intro report first second found key layer expectedType
    rw [Constraint.fromDecoder_hides report first second]
  · intro key layer expectedType constraint
    obtain ⟨key', keyCut, keyBounded⟩ := boundedIdentifier_some key
    obtain ⟨constraint', constraintCut, constraintBounded⟩ := boundedConstraint_some constraint
    obtain ⟨layer', layerCut, layerBounded⟩ := boundedIdentifier_some layer
    refine ⟨key', constraint', layer', ?_, keyBounded, constraintBounded, layerBounded⟩
    simp [configuration, keyCut, constraintCut, layerCut]
  · intro key firstLayer firstShape secondLayer secondShape
    obtain ⟨key', keyCut, keyBounded⟩ := boundedIdentifier_some key
    obtain ⟨first, firstCut, firstBounded⟩ := boundedIdentifier_some firstLayer
    obtain ⟨second, secondCut, secondBounded⟩ := boundedIdentifier_some secondLayer
    refine ⟨key', first, second, ?_, keyBounded, firstBounded, secondBounded⟩
    simp [conflict, keyCut, firstCut, secondCut]

end Renvor.ErrorContext
