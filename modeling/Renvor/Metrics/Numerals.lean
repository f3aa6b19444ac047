import Renvor.Metrics.Exposition

/-! # The numbers of the exposition

A number is written as digits, after a sign or none and with a point or without, and no
two different doubles are written alike (`Renvor.Metrics.number_inj`).
-/

namespace Renvor.Metrics

open Foundation Exposition

/-- A text of digits after a sign or none, so many of them after the point. -/
structure Written (text : List Char) (negative : Bool) (digits places : Nat) : Prop where
  form : ∃ whole fraction, whole ≠ [] ∧ (∀ digit ∈ whole ++ fraction, Digits.isDigit digit = true) ∧
    text = (if negative then ['-'] else []) ++ (whole ++
      if fraction = [] then [] else '.' :: fraction) ∧
    Digits.number (whole ++ fraction) = digits ∧ fraction.length = places

variable {text : List Char} {negative negative' : Bool} {digits digits' places places' : Nat}

/-- A digit is none of the marks that mean something else in a line. -/
theorem digit_ne {digit : Char} (is : Digits.isDigit digit = true) :
    digit ≠ '-' ∧ digit ≠ '+' ∧ digit ≠ '.' ∧ digit ≠ 'e' ∧ digit ≠ 'I' ∧ digit ≠ ' ' ∧
      digit ≠ '\t' ∧ digit ≠ '\n' ∧ digit ≠ '"' ∧ digit ≠ '\\' := by
  refine ⟨?_, ?_, ?_, ?_, ?_, ?_, ?_, ?_, ?_, ?_⟩ <;>
  · rintro rfl
    revert is
    decide

/-- A number without a sign has none to take off. -/
theorem unsign_digits {whole : List Char} (rest : List Char) (some : whole ≠ [])
    (all : ∀ digit ∈ whole, Digits.isDigit digit = true) : unsign (whole ++ rest) = whole ++ rest := by
  cases whole with
  | nil => exact (some rfl).elim
  | cons first others =>
      obtain ⟨minus, plus, _⟩ := digit_ne (all first List.mem_cons_self)
      rw [List.cons_append]
      unfold unsign
      split
      next same => exact (minus (List.cons.inj same).1).elim
      next same => exact (plus (List.cons.inj same).1).elim
      next => rfl

/-- The sign that was written is taken off, and nothing else. -/
theorem unsign_written {whole rest : List Char} (some : whole ≠ [])
    (all : ∀ digit ∈ whole, Digits.isDigit digit = true) :
    unsign ((if negative then ['-'] else []) ++ (whole ++ rest)) = whole ++ rest := by
  cases negative with
  | false => exact unsign_digits rest some all
  | true => rfl

/-- The characters before one, and from it on. -/
theorem span_at {front rest : List Char} {mark : Char} (absent : mark ∉ front) :
    (front ++ mark :: rest).takeWhile (· ≠ mark) = front ∧
      (front ++ mark :: rest).dropWhile (· ≠ mark) = mark :: rest := by
  have clean : ∀ character ∈ front, decide (character ≠ mark) = true := by
    intro character member
    exact decide_eq_true fun same => absent (same ▸ member)
  rw [List.takeWhile_append_of_pos clean, List.dropWhile_append_of_pos clean]
  simp

/-- A text without a mark has all of itself before the mark. -/
theorem span_all {front : List Char} {mark : Char} (absent : mark ∉ front) :
    front.takeWhile (· ≠ mark) = front ∧ front.dropWhile (· ≠ mark) = [] := by
  have clean : ∀ character ∈ front, decide (character ≠ mark) = true := by
    intro character member
    exact decide_eq_true fun same => absent (same ▸ member)
  have whole : front ++ [] = front := List.append_nil front
  rw [← whole, List.takeWhile_append_of_pos clean, List.dropWhile_append_of_pos clean]
  exact ⟨rfl, rfl⟩

/-- A written text is a number. -/
theorem Written.isNumber (written : Written text negative digits places) :
    isNumber text = true := by
  obtain ⟨whole, fraction, some, all, rfl, -, -⟩ := written
  have wholes : ∀ digit ∈ whole, Digits.isDigit digit = true :=
    fun digit member => all digit (List.mem_append_left _ member)
  have no_e : 'e' ∉ whole ++ if fraction = [] then [] else '.' :: fraction := by
    intro member
    rcases List.mem_append.mp member with left | right
    · exact absurd (wholes 'e' left) (by decide)
    · split at right
      · exact nomatch right
      · rcases List.mem_cons.mp right with point | later
        · exact absurd point (by decide)
        · exact absurd (all 'e' (List.mem_append_right _ later)) (by decide)
  have no_point : '.' ∉ whole := fun member => absurd (wholes '.' member) (by decide)
  have whole_fraction : (whole ++ if fraction = [] then [] else '.' :: fraction).takeWhile
      (· ≠ '.') ++ ((whole ++ if fraction = [] then [] else '.' :: fraction).dropWhile
        (· ≠ '.')).drop 1 = whole ++ fraction := by
    by_cases empty : fraction = []
    · rw [if_pos empty, List.append_nil, (span_all no_point).1, (span_all no_point).2, empty]
      rfl
    · rw [if_neg empty, (span_at no_point).1, (span_at no_point).2]
      rfl
  unfold Exposition.isNumber
  simp only
  rw [unsign_written some wholes, (span_all no_e).1, (span_all no_e).2, whole_fraction]
  have digits : isDigits (whole ++ fraction) = true := by
    unfold isDigits
    rw [Bool.and_eq_true, List.all_eq_true]
    exact ⟨by simp [some], all⟩
  simp [digits]

/-- The characters that numbers are written with. -/
def isNumeral (character : Char) : Bool :=
  Digits.isDigit character || ['-', '+', '.', 'I', 'n', 'f'].contains character

/-- What is written for a number has none but the characters of numerals. -/
theorem Written.numeral (written : Written text negative digits places) :
    ∀ character ∈ text, isNumeral character = true := by
  obtain ⟨whole, fraction, some, all, rfl, -, -⟩ := written
  intro character member
  unfold isNumeral
  rw [Bool.or_eq_true]
  rcases List.mem_append.mp member with sign | rest
  · split at sign
    · rw [List.mem_singleton.mp sign]
      exact .inr (by decide)
    · exact nomatch sign
  rcases List.mem_append.mp rest with left | right
  · exact .inl (all character (List.mem_append_left _ left))
  · split at right
    · exact nomatch right
    · rcases List.mem_cons.mp right with point | later
      · rw [point]
        exact .inr (by decide)
      · exact .inl (all character (List.mem_append_right _ later))

/-- What a text of digits says. -/
def spelled (text : List Char) : Bool × Nat × Nat :=
  (text.head? = some '-', Digits.number ((unsign text).filter (· ≠ '.')),
    ((unsign text).dropWhile (· ≠ '.')).length - 1)

/-- What is written for a number is read as its sign, its digits and its places. -/
theorem Written.spelled (written : Written text negative digits places) :
    spelled text = (negative, digits, places) := by
  obtain ⟨whole, fraction, some, all, rfl, rfl, rfl⟩ := written
  have wholes : ∀ digit ∈ whole, Digits.isDigit digit = true :=
    fun digit member => all digit (List.mem_append_left _ member)
  have no_point : '.' ∉ whole := fun member => absurd (wholes '.' member) (by decide)
  have kept : ∀ digit ∈ whole ++ fraction, decide (digit ≠ '.') = true := fun digit member =>
    decide_eq_true (digit_ne (all digit member)).2.2.1
  have sign : decide (((if negative then ['-'] else []) ++ (whole ++
      if fraction = [] then [] else '.' :: fraction)).head? = Option.some '-') = negative := by
    cases negative with
    | true => rfl
    | false =>
        cases whole with
        | nil => exact (some rfl).elim
        | cons first others =>
            have minus := (digit_ne (wholes first List.mem_cons_self)).1
            simp [minus]
  unfold Metrics.spelled
  rw [sign, unsign_written some wholes]
  by_cases empty : fraction = []
  · rw [if_pos empty, List.append_nil, (span_all no_point).2, empty, List.append_nil,
      List.filter_eq_self.mpr fun digit member =>
        kept digit (List.mem_append_left _ member)]
    rfl
  · have fractions := List.filter_eq_self.mpr fun digit member =>
      kept digit (List.mem_append_right whole member)
    have fronts := List.filter_eq_self.mpr fun digit member =>
      kept digit (List.mem_append_left fraction member)
    rw [if_neg empty, (span_at no_point).2, List.filter_append, fronts,
      List.filter_cons_of_neg (by decide), fractions, List.length_cons, Nat.add_sub_cancel]

/-- A whole number is written with its digits and no places. -/
theorem written_padded (number : Nat) :
    Written (Digits.padded 1 number) false number 0 := by
  refine ⟨Digits.padded 1 number, [], Digits.padded_ne_nil Nat.one_pos, ?_, ?_, ?_, rfl⟩
  · rw [List.append_nil]
    exact fun digit member => Digits.isDigit_padded member
  · rw [if_pos rfl, List.append_nil]
    rfl
  · rw [List.append_nil, Digits.number_padded]

/-- A minus in front of a number makes it negative. -/
theorem Written.minus (written : Written text false digits places) :
    Written ('-' :: text) true digits places := by
  obtain ⟨whole, fraction, some, all, rfl, number, length⟩ := written
  exact ⟨whole, fraction, some, all, rfl, number, length⟩

/-- A count is written as itself. -/
theorem written_unsigned (count : UInt64) : Written (unsigned count) false count.toNat 0 :=
  written_padded _

/-- A whole number is written with its sign, except that zero has none. -/
theorem written_integer (negative : Bool) (whole : Nat) :
    Written (integer (if negative then -(whole : Int) else whole))
      (negative && decide (whole ≠ 0)) whole 0 := by
  cases negative with
  | false =>
      have written := written_padded whole
      have positive : ¬(whole : Int) < 0 := by omega
      unfold integer
      rw [Bool.false_and, if_neg Bool.false_ne_true, if_neg positive, Int.natAbs_natCast]
      exact written
  | true =>
      rcases Nat.eq_zero_or_pos whole with zero | positive
      · rw [zero]
        exact written_padded 0
      · have written := (written_padded whole).minus
        rw [Bool.true_and, decide_eq_true (Nat.ne_of_gt positive)]
        unfold integer
        rw [if_pos rfl, if_pos (by omega), Int.natAbs_neg, Int.natAbs_natCast]
        exact written

/-- Digits that end at a place are written as the same number, with a point where one is needed. -/
theorem written_positional (digits place : Nat) :
    ∃ read places, Written (positional digits place) false read places ∧
      read * 10 ^ (Binary64.places - places) = digits * 10 ^ place := by
  unfold positional
  split
  next more =>
    refine ⟨_, 0, written_padded _, ?_⟩
    rw [Nat.sub_zero, Nat.mul_assoc, ← Nat.pow_add, Nat.sub_add_cancel more]
  next less =>
    refine ⟨digits, Binary64.places - place, ?_, ?_⟩
    · have some : 0 < Binary64.places - place := by omega
      simp only
      generalize Binary64.places - place = decimals at some
      have long : decimals + 1 ≤ (Digits.padded (decimals + 1) digits).length := by
        simp only [Digits.padded, List.length_map, List.length_reverse, List.length_append,
          List.length_replicate]
        omega
      generalize written : Digits.padded (decimals + 1) digits = text at long
      refine ⟨text.take (text.length - decimals), text.drop (text.length - decimals), ?_, ?_, ?_, ?_,
        ?_⟩
      · intro empty
        have length := congrArg List.length empty
        rw [List.length_take, List.length_nil] at length
        omega
      · rw [List.take_append_drop, ← written]
        exact fun digit member => Digits.isDigit_padded member
      · have filled : text.drop (text.length - decimals) ≠ [] := by
          intro empty
          have length := congrArg List.length empty
          rw [List.length_drop, List.length_nil] at length
          omega
        rw [if_neg filled]
        rfl
      · rw [List.take_append_drop, ← written, Digits.number_padded]
      · rw [List.length_drop]
        omega
    · congr 2
      omega

/-- A number is written with the sign it has. -/
theorem Written.signed (written : Written text false digits places) (negative : Bool) :
    Written (Metrics.minus negative text) negative digits places := by
  cases negative with
  | false => exact written
  | true => exact written.minus

/-- **A double is read back from what is written for it.** -/
theorem written_number (value : Binary64) :
    ∃ digits places, Written (number (.finite value)) (value.negative && decide (value.units ≠ 0))
        digits places ∧
      value.units = Binary64.nearest (digits * 10 ^ (Binary64.places - places) * Binary64.one)
        (10 ^ Binary64.places) := by
  have some_scale : 0 < 10 ^ Binary64.places := Nat.pow_pos (by decide)
  unfold number
  simp only
  split
  next short =>
    have whole : value.units / Binary64.one * Binary64.one = value.units :=
      Nat.div_mul_cancel (Nat.dvd_of_mod_eq_zero short.1)
    have zero : decide (value.units / Binary64.one ≠ 0) = decide (value.units ≠ 0) := by
      rw [decide_eq_decide, not_iff_not]
      constructor
      · intro none_
        rw [← whole, none_, Nat.zero_mul]
      · intro none_
        rw [none_, Nat.zero_div]
    refine ⟨value.units / Binary64.one, 0, ?_, ?_⟩
    · rw [← zero]
      exact written_integer value.negative (value.units / Binary64.one)
    · rw [Nat.sub_zero, Nat.mul_right_comm, whole]
      exact (Binary64.nearest_exact value.representable some_scale).symm
  next long =>
    have positive : 0 < value.units := by
      rcases Nat.eq_zero_or_pos value.units with zero | positive
      · rw [zero, Nat.zero_mod] at long
        exact (long ⟨rfl, Nat.mul_pos (Nat.pow_pos (by decide)) Binary64.one_pos⟩).elim
      · exact positive
    obtain ⟨digits, places, written, same⟩ := written_positional
      (Binary64.shortest value.units).1 (Binary64.shortest value.units).2
    refine ⟨digits, places, ?_, ?_⟩
    · rw [decide_eq_true (Nat.ne_of_gt positive), Bool.and_true]
      exact written.signed value.negative
    · rw [same, Binary64.shortest_reads value.representable positive]

/-- **No two different doubles are written alike**, the two zeros apart. -/
theorem number_inj {value other : Binary64}
    (same : number (.finite value) = number (.finite other)) :
    Double.signed value = Double.signed other := by
  obtain ⟨digits, places, written, units⟩ := written_number value
  obtain ⟨digits', places', written', units'⟩ := written_number other
  have spelled := written.spelled.symm.trans ((congrArg Metrics.spelled same).trans written'.spelled)
  rw [Prod.mk.injEq, Prod.mk.injEq] at spelled
  obtain ⟨sign, rfl, rfl⟩ := spelled
  have magnitude := units.trans units'.symm
  unfold Double.signed
  rw [magnitude] at sign ⊢
  rcases Nat.eq_zero_or_pos other.units with zero | positive
  · rw [zero]
    simp
  · rw [decide_eq_true (Nat.ne_of_gt positive), Bool.and_true, Bool.and_true] at sign
    rw [sign]

/-- A finite number is written with numerals, and read. -/
theorem number_finite (value : Binary64) :
    isNumber (number (.finite value)) = true ∧
      ∀ character ∈ number (.finite value), isNumeral character = true := by
  obtain ⟨digits, places, written, _⟩ := written_number value
  exact ⟨written.isNumber, written.numeral⟩

/-- What is written for a finite number is not what is written for infinity. -/
theorem number_ne_infinity (value : Binary64) : number (.finite value) ≠ "+Inf".toList := by
  intro same
  obtain ⟨digits, places, written, _⟩ := written_number value
  obtain ⟨whole, fraction, some, all, form, -, -⟩ := written.form
  rw [same] at form
  split at form
  · exact absurd (List.cons.inj form).1 (by decide)
  · cases whole with
    | nil => exact some rfl
    | cons first rest =>
        have first_plus : '+' = first := (List.cons.inj form).1
        exact absurd (all first List.mem_cons_self) (by rw [← first_plus]; decide)

end Renvor.Metrics
