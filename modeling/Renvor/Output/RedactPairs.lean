import Renvor.Output.Redact

/-! # What redaction keeps

The scanner keeps all of a line but the values of its pairs, where the pairs are plain
(`Renvor.Redact.line_plain`), and then applied again it changes nothing
(`Renvor.Redact.line_line`). Where a pair is not plain, values of the same form are told
apart or the second run differs (`Renvor.Redact.not_plain`).
-/

namespace Renvor.Redact

/-! ## Keys -/

theorem anyKey_of_bareKey {scanned : List Char} (secret : bareKey scanned = true) :
    anyKey scanned = true := by
  unfold anyKey
  split
  next scanned =>
    have none : bareKey ('"' :: scanned) = false := by
      unfold bareKey keyBefore
      rw [List.takeWhile_cons_of_neg (by decide)]
      decide
    rw [none] at secret
    cases secret
  next => exact secret

/-- What a text opens: it ends in the first separator after a key. -/
def Opens (key : List Char → Bool) (front : List Char) : Prop :=
  ∀ rest, findPair key [] (front ++ rest) = some (front, rest)

/-- What a text passes over: there is no separator after a key in it. -/
def Passes (key : List Char → Bool) (front : List Char) : Prop :=
  ∀ rest, findPair key [] (front ++ rest) = findPair key front.reverse rest

theorem findPair_step {key : List Char → Bool} {scanned text front rest : List Char}
    (found : findPair key scanned text = some (front, rest)) :
    ∃ before, front = scanned.reverse ++ before ∧ text = before ++ rest ∧ before ≠ [] ∧
      ∀ other, findPair key scanned (before ++ other) = some (front, other) := by
  induction text generalizing scanned with
  | nil => cases found
  | cons character text ih =>
      unfold findPair at found
      split at found
      next ends =>
        cases found
        refine ⟨[character], by simp, rfl, by simp, fun other => ?_⟩
        rw [List.singleton_append, findPair, if_pos ends]
      next goes =>
        obtain ⟨before, rfl, rfl, _, again⟩ := ih found
        refine ⟨character :: before, by simp, rfl, by simp, fun other => ?_⟩
        rw [List.cons_append, findPair, if_neg goes, again]

/-- Where a key of either kind is found, a bare one is found too, or not up to there. -/
theorem findPair_bare {scanned text front rest : List Char}
    (found : findPair anyKey scanned text = some (front, rest)) :
    findPair bareKey scanned text = some (front, rest) ∨
      ∀ before other, text = before ++ rest →
        findPair bareKey scanned (before ++ other) = findPair bareKey front.reverse other := by
  induction text generalizing scanned with
  | nil => cases found
  | cons character text ih =>
      unfold findPair at found
      split at found
      next ends =>
        cases found
        rw [Bool.and_eq_true] at ends
        by_cases bare : bareKey scanned = true
        · left
          rw [findPair, if_pos (by rw [ends.1, bare]; rfl)]
        · right
          intro before other whole
          obtain rfl : before = [character] := List.append_cancel_right whole.symm
          have different : ¬(isSeparator character && bareKey scanned) = true := by
            rw [Bool.and_eq_true]
            exact fun both => bare both.2
          rw [List.singleton_append, findPair, if_neg different, List.reverse_reverse]
      next goes =>
        have other : ¬(isSeparator character && bareKey scanned) = true := by
          rw [Bool.and_eq_true]
          intro both
          exact goes (by rw [Bool.and_eq_true]; exact ⟨both.1, anyKey_of_bareKey both.2⟩)
        rw [findPair, if_neg other]
        rcases ih found with bare | passes
        · exact .inl bare
        · right
          intro before more whole
          obtain ⟨after, rfl, rfl, _, _⟩ := findPair_step found
          obtain rfl : before = character :: after := List.append_cancel_right whole.symm
          rw [List.cons_append, findPair, if_neg other]
          exact passes after more rfl

theorem findPair_none {scanned text : List Char} (none : findPair anyKey scanned text = none) :
    findPair bareKey scanned text = Option.none := by
  induction text generalizing scanned with
  | nil => rfl
  | cons character text ih =>
      unfold findPair at none ⊢
      split at none
      next => cases none
      next goes =>
        rw [if_neg]
        · exact ih none
        · rw [Bool.and_eq_true] at goes ⊢
          exact fun both => goes ⟨both.1, anyKey_of_bareKey both.2⟩

/-- A text without a separator is passed over. -/
theorem findPair_inert {key : List Char → Bool} {scanned inert rest : List Char}
    (none : ∀ character ∈ inert, isSeparator character = false) :
    findPair key scanned (inert ++ rest) = findPair key (inert.reverse ++ scanned) rest := by
  induction inert generalizing scanned with
  | nil => rfl
  | cons character inert ih =>
      rw [List.cons_append, findPair, none character List.mem_cons_self, Bool.false_and,
        if_neg Bool.false_ne_true,
        ih fun other member => none other (List.mem_cons_of_mem character member)]
      simp

/-! ## Values -/

/-- What ends a value that is written so is none, where it is bare, or ends it. -/
theorem readValue_ends {text : List Char} (bare : (readValue text).form = .bare) :
    ∀ character ∈ (readValue text).rest.head?, endsValue character = true := by
  unfold readValue at bare ⊢
  split at bare
  next quote _ =>
    have never : ∀ more, (readQuoted quote more).form ≠ .bare := by
      intro more
      fun_induction readQuoted quote more with
      | case1 => rintro ⟨⟩
      | case2 character more value ih =>
          dsimp only
          split
          next => rintro ⟨⟩
          next => exact ih
      | case3 more => rintro ⟨⟩
      | case4 character more _ _ value ih => exact ih
    exact absurd bare (never _)
  next =>
    intro character head
    have kept := List.head?_dropWhile_not (fun character => !endsValue character) text
    dsimp only at head
    rw [Option.mem_def] at head
    rw [head] at kept
    simpa using kept

theorem readQuoted_cons {quote character : Char} {more : List Char}
    (plain : character = '\\' → more = []) :
    readQuoted quote (character :: more) =
      if character = quote then ⟨[character], .quoted, more⟩
      else ⟨character :: (readQuoted quote more).text, (readQuoted quote more).form,
        (readQuoted quote more).rest⟩ := by
  rw [readQuoted]
  intro next rest same whole
  rw [plain same] at whole
  cases whole

/-- A quoted value is read in front of anything, where it is closed. -/
theorem readQuoted_again {quote : Char} (marks : isQuote quote = true) {text other : List Char}
    (ends : (readQuoted quote text).rest = [] → other = []) :
    readQuoted quote ((readQuoted quote text).text ++ other) =
      ⟨(readQuoted quote text).text, (readQuoted quote text).form, other⟩ := by
  fun_induction readQuoted quote text with
  | case1 =>
      rw [ends rfl]
      rfl
  | case2 character more value ih =>
      rw [List.cons_append, List.cons_append, readQuoted, ih ends]
  | case3 more =>
      rw [List.singleton_append, readQuoted_cons, if_pos rfl]
      rintro rfl
      cases marks
  | case4 character more plain differs value ih =>
      rw [List.cons_append, readQuoted_cons, if_neg differs, ih ends]
      intro escape
      cases more with
      | nil =>
          rw [ends rfl]
          rfl
      | cons first rest => exact absurd rfl (plain first rest escape)

/-- A value begins as before in front of anything that goes on as what was after it. -/
theorem head_again {text other : List Char} (head : other.head? = (readValue text).rest.head?) :
    ((readValue text).text ++ other).head? = text.head? := by
  have whole := congrArg List.head? (readValue_append text)
  rw [List.head?_append] at whole ⊢
  rw [head, whole]

theorem dropWhile_ends {text : List Char} (ends : ∀ character ∈ text.head?, endsValue character) :
    (text.takeWhile fun character => !endsValue character) = [] ∧
      (text.dropWhile fun character => !endsValue character) = text := by
  cases text with
  | nil => exact ⟨rfl, rfl⟩
  | cons first rest =>
      have stops : ¬(!endsValue first) = true := by simp [ends first rfl]
      exact ⟨List.takeWhile_cons_of_neg stops, List.dropWhile_cons_of_neg stops⟩

/-- A value is read in front of anything that goes on as what was after it. -/
theorem readValue_again {text other : List Char}
    (head : other.head? = (readValue text).rest.head?) :
    readValue ((readValue text).text ++ other) =
      ⟨(readValue text).text, (readValue text).form, other⟩ := by
  have again := head_again head
  cases begins : text.head?.filter isQuote with
  | some quote =>
      have marks := (head_quote begins).2
      have read : readValue text = ⟨quote :: (readQuoted quote (text.drop 1)).text,
          (readQuoted quote (text.drop 1)).form, (readQuoted quote (text.drop 1)).rest⟩ := by
        rw [readValue, begins]
      have ends : (readQuoted quote (text.drop 1)).rest = [] → other = [] := by
        intro none
        rw [read, none] at head
        exact List.head?_eq_none_iff.mp head
      rw [readValue, again, begins, read]
      simp only [List.cons_append, List.drop_succ_cons, List.drop_zero, readQuoted_again marks ends]
  | none =>
      have read : readValue text = ⟨text.takeWhile fun character => !endsValue character, .bare,
          text.dropWhile fun character => !endsValue character⟩ := by
        rw [readValue, begins]
      have bare : (readValue text).form = .bare := by rw [read]
      have stops := readValue_ends bare
      rw [← head] at stops
      have inside : ∀ character ∈ text.takeWhile (fun character => !endsValue character),
          (!endsValue character) = true :=
        fun character member => List.all_eq_true.mp List.all_takeWhile character member
      rw [readValue, again, begins, read]
      simp only [Value.mk.injEq, true_and]
      rw [List.takeWhile_append_of_pos inside, List.dropWhile_append_of_pos inside,
        (dropWhile_ends stops).1, (dropWhile_ends stops).2, List.append_nil]
      exact ⟨rfl, rfl⟩

theorem dropWhile_quote {quote : Char} (marks : isQuote quote = true) {text : List Char}
    (plain : (readQuoted quote text).form ≠ .escaped) :
    (text.dropWhile (· ≠ quote)).drop 1 = (readQuoted quote text).rest := by
  fun_induction readQuoted quote text with
  | case1 => rfl
  | case2 character more value ih =>
      dsimp only at plain ⊢
      split at plain
      next => exact absurd rfl plain
      next other =>
        have escape : '\\' ≠ quote := by
          rintro rfl
          cases marks
        rw [List.dropWhile_cons_of_pos (by simpa using escape),
          List.dropWhile_cons_of_pos (by simpa using other)]
        exact ih plain
  | case3 more => simp
  | case4 character more _ differs value ih =>
      rw [List.dropWhile_cons_of_pos (by simpa using differs)]
      exact ih plain

/-- The scanner drops a value without escapes. -/
theorem afterValue_eq {text : List Char} (plain : (readValue text).form ≠ .escaped) :
    afterValue text = (readValue text).rest := by
  unfold afterValue readValue
  cases begins : text.head?.filter isQuote with
  | some quote =>
      rw [readValue, begins] at plain
      exact dropWhile_quote (head_quote begins).2 plain
  | none => rfl

/-- The text of a value of a form, as long as wanted. -/
def filler (length : Nat) : Form → List Char
  | .bare => 'a' :: List.replicate length 'a'
  | .quoted => '"' :: List.replicate length 'a' ++ ['"']
  | .escaped => '"' :: '\\' :: '"' :: List.replicate length 'a' ++ ['"']

theorem readQuoted_plain {length : Nat} {other : List Char} :
    readQuoted '"' (List.replicate length 'a' ++ '"' :: other) =
      ⟨List.replicate length 'a' ++ ['"'], .quoted, other⟩ := by
  induction length with
  | zero =>
      rw [List.replicate_zero, List.nil_append, readQuoted_cons, if_pos rfl]
      · rfl
      · exact fun escape => absurd escape (by decide)
  | succ length ih =>
      rw [List.replicate_succ, List.cons_append, readQuoted_cons, if_neg (by decide), ih]
      · rfl
      · exact fun escape => absurd escape (by decide)

theorem readValue_filler {length : Nat} {form : Form} {other : List Char}
    (ends : form = .bare → ∀ character ∈ other.head?, endsValue character = true) :
    readValue (filler length form ++ other) = ⟨filler length form, form, other⟩ := by
  cases form with
  | bare =>
      have inside : ∀ character ∈ 'a' :: List.replicate length 'a',
          (!endsValue character) = true := by
        intro character member
        rw [← List.replicate_succ] at member
        rw [List.eq_of_mem_replicate member]
        decide
      have stops := dropWhile_ends (ends rfl)
      show (⟨(('a' :: List.replicate length 'a') ++ other).takeWhile _, .bare,
        (('a' :: List.replicate length 'a') ++ other).dropWhile _⟩ : Value) = _
      rw [List.takeWhile_append_of_pos inside, List.dropWhile_append_of_pos inside, stops.1,
        stops.2, List.append_nil]
      rfl
  | quoted =>
      have whole : filler length .quoted ++ other =
          '"' :: (List.replicate length 'a' ++ '"' :: other) := by simp [filler]
      rw [whole]
      show (⟨'"' :: (readQuoted '"' _).text, (readQuoted '"' _).form, (readQuoted '"' _).rest⟩ :
        Value) = _
      rw [List.drop_one, List.tail_cons, readQuoted_plain]
      rfl
  | escaped =>
      have whole : filler length .escaped ++ other =
          '"' :: '\\' :: '"' :: (List.replicate length 'a' ++ '"' :: other) := by simp [filler]
      rw [whole]
      show (⟨'"' :: (readQuoted '"' _).text, (readQuoted '"' _).form, (readQuoted '"' _).rest⟩ :
        Value) = _
      rw [List.drop_one, List.tail_cons, readQuoted, readQuoted_plain]
      rfl

/-! ## Pairs one after the other -/

/-- The text before a value: it ends in the separator after a key, and spaces. -/
structure Front (front blanks : List Char) : Prop where
  opens : Opens anyKey front
  some : front ≠ []
  bare : Opens bareKey front ∨ Passes bareKey front
  blanks : ∀ character ∈ blanks, character = ' '

section Front

variable {front blanks tail : List Char}

theorem split_spaces (blank : ∀ character ∈ blanks, character = ' ') (begins : tail.head? ≠ some ' ') :
    spaces (blanks ++ tail) = blanks ∧ afterSpaces (blanks ++ tail) = tail := by
  have space : ∀ character ∈ blanks, decide (character = ' ') = true :=
    fun character member => decide_eq_true (blank character member)
  unfold spaces afterSpaces
  rw [List.takeWhile_append_of_pos space, List.dropWhile_append_of_pos space]
  cases tail with
  | nil => simp
  | cons first rest =>
      have other : first ≠ ' ' := by simpa using begins
      rw [List.takeWhile_cons_of_neg (by simpa using other),
        List.dropWhile_cons_of_neg (by simpa using other), List.append_nil]
      exact ⟨rfl, rfl⟩

theorem pairs_none {input : List Char} (none : findPair anyKey [] input = none) :
    pairs input = ([], input) := by
  rw [pairs]
  split
  next => rfl
  next found =>
    rw [none] at found
    cases found

theorem pairs_front (opened : Front front blanks) (begins : tail.head? ≠ some ' ') :
    pairs (front ++ (blanks ++ tail)) =
      (⟨front ++ blanks, (readValue tail).text, (readValue tail).form,
        (readValue tail).rest.head?⟩ :: (pairs (readValue tail).rest).1,
        (pairs (readValue tail).rest).2) := by
  obtain ⟨blank, after⟩ := split_spaces opened.blanks begins
  rw [pairs]
  split
  next none =>
    rw [opened.opens] at none
    cases none
  next front' rest found =>
    rw [opened.opens] at found
    cases found
    simp only [blank, after]

theorem line_none {input : List Char} (none : findPair bareKey [] input = none) :
    line input = input := by
  rw [line]
  split
  next => rfl
  next found =>
    rw [none] at found
    cases found

theorem line_front (opened : Front front blanks) (bare : Opens bareKey front)
    (begins : tail.head? ≠ some ' ') :
    line (front ++ (blanks ++ tail)) =
      front ++ (blanks ++ (redacted ++ line (afterValue tail))) := by
  obtain ⟨blank, after⟩ := split_spaces opened.blanks begins
  rw [line]
  split
  next none =>
    rw [bare] at none
    cases none
  next front' rest found =>
    rw [bare] at found
    cases found
    rw [blank, after, List.append_assoc, List.append_assoc]

/-- The key before a value is bare, or is not found. -/
theorem findPair_front (opened : Front front blanks) :
    (findPair bareKey [] (front ++ blanks)).isSome = true ↔ Opens bareKey front := by
  constructor
  · intro found
    refine opened.bare.resolve_right fun passes => ?_
    rw [passes, ← List.append_nil blanks, findPair_inert] at found
    · cases found
    · intro character member
      rw [opened.blanks character member]
      decide
  · intro bare
    rw [bare]
    rfl

end Front

/-- A line has no pair, or it is a pair and a line after it. -/
theorem pairs_induction {motive : List Char → Prop}
    (none : ∀ input, findPair anyKey [] input = none → motive input)
    (pair : ∀ front blanks tail, Front front blanks → tail.head? ≠ some ' ' →
      motive (readValue tail).rest → motive (front ++ (blanks ++ tail))) (input : List Char) :
    motive input := by
  induction size : input.length using Nat.strong_induction_on generalizing input with
  | _ size ih =>
      cases found : findPair anyKey [] input with
      | none => exact none input found
      | some parts =>
          obtain ⟨front, rest⟩ := parts
          obtain ⟨_, rfl, rfl, some, opens⟩ := findPair_step found
          have bare : Opens bareKey front ∨ Passes bareKey front := by
            rcases findPair_bare found with bare | passes
            · obtain ⟨same, whole, parts, _, again⟩ := findPair_step bare
              exact .inl (List.append_cancel_right parts ▸ again)
            · exact .inr fun other => passes front other rfl
          rw [← List.takeWhile_append_dropWhile (p := (· = ' ')) (l := rest)]
          have opened : Front front (rest.takeWhile (· = ' ')) :=
            { opens, some, bare
              blanks := fun character member =>
                of_decide_eq_true (List.all_eq_true.mp List.all_takeWhile character member) }
          refine pair front _ _ opened ?_ ?_
          · intro space
            have kept := List.head?_dropWhile_not (· = ' ') rest
            rw [space] at kept
            exact of_decide_eq_false kept rfl
          · refine ih _ ?_ _ rfl
            have shorter := length_readValue (rest.dropWhile (· = ' '))
            have blank := length_afterSpaces rest
            have long := List.length_pos_iff.mpr some
            rw [← size, List.length_append]
            unfold afterSpaces at blank
            omega

/-! ## What redaction leaves -/

/-- The scanner keeps how a line begins. -/
theorem head_line (input : List Char) : (line input).head? = input.head? := by
  cases found : findPair bareKey [] input with
  | none => rw [line_none found]
  | some parts =>
      obtain ⟨front, rest⟩ := parts
      obtain ⟨before, whole, rfl, some, _⟩ := findPair_step found
      rw [line]
      split
      next none =>
        cases found.symm.trans none
      next found' =>
        rw [found] at found'
        cases found'
        rw [whole, List.reverse_nil, List.nil_append]
        cases before with
        | nil => exact absurd rfl some
        | cons first more => rfl

/-- A line with no pairs is left as it is. -/
theorem line_unchanged {input : List Char} (none : (pairs input).1 = []) : line input = input := by
  induction input using pairs_induction with
  | none input absent => exact line_none (findPair_none absent)
  | pair front blanks tail opened begins _ =>
      rw [pairs_front opened begins] at none
      cases none

section Front

variable {front blanks tail : List Char}

theorem plain_front (opened : Front front blanks) (begins : tail.head? ≠ some ' ') :
    Plain (front ++ (blanks ++ tail)) ↔
      (Opens bareKey front ∧ (readValue tail).form ≠ .escaped ∧
        ∀ character ∈ (readValue tail).rest.head?, endsValue character = true) ∧
        Plain (readValue tail).rest := by
  unfold Plain
  rw [pairs_front opened begins]
  simp only [List.forall_mem_cons]
  refine and_congr_left fun _ => ⟨?_, ?_⟩
  · rintro ⟨key, form, next⟩
    exact ⟨(findPair_front opened).mp key, form, next⟩
  · rintro ⟨key, form, next⟩
    exact ⟨(findPair_front opened).mpr key, form, next⟩

/-- A plain line without the values of its pairs. -/
theorem line_plain {input : List Char} (plain : Plain input) :
    line input = ((pairs input).1.flatMap fun pair => pair.front ++ redacted) ++ (pairs input).2 := by
  induction input using pairs_induction with
  | none input absent =>
      rw [line_none (findPair_none absent), pairs_none absent]
      rfl
  | pair front blanks tail opened begins ih =>
      obtain ⟨⟨bare, form, _⟩, rest⟩ := (plain_front opened begins).mp plain
      rw [line_front opened bare begins, afterValue_eq form, ih rest, pairs_front opened begins,
        List.flatMap_cons]
      simp only [List.append_assoc]

theorem head_redacted (text : List Char) : (redacted ++ text).head? = some '[' := by
  have head : redacted.head? = some '[' := by decide
  rw [List.head?_append, head]
  rfl

/-- The marker is a bare value. -/
theorem afterValue_redacted (text : List Char) :
    afterValue (redacted ++ text) = text.dropWhile fun character => !endsValue character := by
  have inside : ∀ character ∈ redacted, (!endsValue character) = true :=
    List.all_eq_true.mp rfl
  have bare : (redacted ++ text).head?.filter isQuote = none := by
    rw [head_redacted]
    decide
  rw [afterValue, bare]
  exact List.dropWhile_append_of_pos inside

/-- What the second run makes of the first pair. -/
theorem line_redacted (opened : Front front blanks) (bare : Opens bareKey front)
    (text : List Char) :
    line (front ++ (blanks ++ (redacted ++ text))) =
      front ++ (blanks ++ (redacted ++
        line (text.dropWhile fun character => !endsValue character))) := by
  rw [line_front opened bare, afterValue_redacted]
  rw [head_redacted]
  decide

theorem dropWhile_line {text : List Char}
    (ends : ∀ character ∈ text.head?, endsValue character = true) :
    ((line text).dropWhile fun character => !endsValue character) = line text := by
  rw [← head_line] at ends
  exact (dropWhile_ends ends).2

/-- **A plain line is redacted once.** -/
theorem line_line {input : List Char} (plain : Plain input) : line (line input) = line input := by
  induction input using pairs_induction with
  | none input absent => rw [line_none (findPair_none absent), line_none (findPair_none absent)]
  | pair front blanks tail opened begins ih =>
      obtain ⟨⟨bare, form, next⟩, rest⟩ := (plain_front opened begins).mp plain
      rw [line_front opened bare begins, afterValue_eq form, line_redacted opened bare,
        dropWhile_line next, ih rest]

/-- Lines alike are plain together. -/
theorem Alike.plain {left right : List Char} (alike : Alike left right) (plain : Plain left) :
    Plain right := by
  intro pair member
  have blank : pair.blank ∈ (pairs left).1.map Pair.blank := by
    rw [alike.1]
    exact List.mem_map_of_mem member
  obtain ⟨own, mine, same⟩ := List.mem_map.mp blank
  have facts := plain own mine
  obtain ⟨frontEq, _, formEq, nextEq⟩ := Pair.mk.injEq .. ▸ same
  exact ⟨frontEq ▸ facts.key, formEq ▸ facts.form, nextEq ▸ facts.next⟩

theorem Alike.same {left right : List Char} (alike : Alike left right) : Same left right := by
  refine ⟨?_, alike.2⟩
  have fronts := congrArg (List.map Pair.front) alike.1
  rw [List.map_map, List.map_map] at fronts
  exact fronts

/-- **Plain lines that differ only in values are redacted alike.** -/
theorem line_same {left right : List Char} (same : Same left right) (plain : Plain left)
    (plain' : Plain right) : line left = line right := by
  have flat : ∀ input, ((pairs input).1.flatMap fun pair => pair.front ++ redacted) =
      ((pairs input).1.map Pair.front).flatMap fun front => front ++ redacted := by
    intro input
    rw [List.flatMap_map]
  rw [line_plain plain, line_plain plain', flat, flat, same.1, same.2]

theorem head_pairs (input : List Char) :
    input.head? = ((pairs input).1.head?.map Pair.front |>.getD (pairs input).2).head? := by
  induction input using pairs_induction with
  | none input absent => rw [pairs_none absent]; rfl
  | pair front blanks tail opened begins _ =>
      rw [pairs_front opened begins]
      cases front with
      | nil => exact absurd rfl opened.some
      | cons first rest => rfl

theorem Alike.head {left right : List Char} (alike : Alike left right) :
    left.head? = right.head? := by
  have same := alike.same
  have heads := congrArg List.head? same.1
  rw [List.head?_map, List.head?_map] at heads
  rw [head_pairs left, head_pairs right, heads, same.2]

end Front

/-! ## What is not plain -/

theorem Passes.inert {key : List Char → Bool} {front inert : List Char} (passes : Passes key front)
    (none : ∀ character ∈ inert, isSeparator character = false) : Passes key (front ++ inert) := by
  intro rest
  rw [List.append_assoc, passes, findPair_inert none, List.reverse_append]

/-- What is passed over is kept. -/
theorem Passes.length_line {front : List Char} (passes : Passes bareKey front) (rest : List Char) :
    front.length ≤ (line (front ++ rest)).length := by
  rw [line]
  split
  next =>
    rw [List.length_append]
    omega
  next front' rest' found =>
    rw [passes] at found
    obtain ⟨before, rfl, _, _, _⟩ := findPair_step found
    simp only [List.length_append, List.length_reverse]
    omega

theorem filler_inert (length : Nat) (form : Form) :
    ∀ character ∈ filler length form, isSeparator character = false := by
  have letters : ∀ character ∈ List.replicate length 'a', isSeparator character = false := by
    intro character member
    rw [List.eq_of_mem_replicate member]
    decide
  intro character member
  cases form <;> simp only [filler, List.mem_cons, List.mem_append, List.cons_append,
    List.not_mem_nil, or_false] at member
  case bare =>
    rcases member with rfl | letter
    · decide
    · exact letters character letter
  case quoted =>
    rcases member with rfl | letter | rfl
    · decide
    · exact letters character letter
    · decide
  case escaped =>
    rcases member with rfl | rfl | rfl | letter | rfl
    · decide
    · decide
    · decide
    · exact letters character letter
    · decide

theorem head_filler {length : Nat} {form : Form} {rest : List Char} :
    (filler length form ++ rest).head? ≠ some ' ' := by
  cases form <;> simp [filler]

theorem length_filler (length : Nat) (form : Form) : length ≤ (filler length form).length := by
  cases form <;> simp [filler] <;> omega

section Front

variable {front blanks tail : List Char}

/-- Another value of the same form in place of the first. -/
theorem alike_filler (opened : Front front blanks) (begins : tail.head? ≠ some ' ') (length : Nat) :
    Alike (front ++ (blanks ++ tail))
      (front ++ (blanks ++ (filler length (readValue tail).form ++ (readValue tail).rest))) := by
  unfold Alike
  rw [pairs_front opened begins, pairs_front opened head_filler, readValue_filler readValue_ends]
  exact ⟨rfl, rfl⟩

/-- The value of a quoted key is kept. -/
theorem length_passes (opened : Front front blanks) (passes : Passes bareKey front) (length : Nat)
    (form : Form) (rest : List Char) :
    length ≤ (line (front ++ (blanks ++ (filler length form ++ rest)))).length := by
  have blank : ∀ character ∈ blanks, isSeparator character = false := by
    intro character member
    rw [opened.blanks character member]
    decide
  have kept := ((passes.inert blank).inert (filler_inert length form)).length_line rest
  have long := length_filler length form
  simp only [List.append_assoc, List.length_append] at kept
  omega

/-- What follows an escaped quote is kept. -/
theorem length_escaped (opened : Front front blanks) (bare : Opens bareKey front) (length : Nat)
    (rest : List Char) :
    length ≤ (line (front ++ (blanks ++ (filler length .escaped ++ rest)))).length := by
  have after : afterValue (filler length .escaped ++ rest) =
      List.replicate length 'a' ++ '"' :: rest := by
    have begins : (filler length .escaped ++ rest).head?.filter isQuote = some '"' := by
      simp [filler, isQuote]
    rw [afterValue, begins]
    simp [filler]
  have nothing : Passes bareKey [] := fun _ => rfl
  have letters : ∀ character ∈ List.replicate length 'a', isSeparator character = false := by
    intro character member
    rw [List.eq_of_mem_replicate member]
    decide
  have kept := (nothing.inert letters).length_line ('"' :: rest)
  rw [List.nil_append, List.length_replicate] at kept
  rw [line_front opened bare head_filler, after]
  simp only [List.length_append]
  omega

/-- **A line that is not plain is not redacted**: another value of the same form leaves
another text, or a second run does. -/
theorem not_plain {input : List Char} (other : ¬Plain input) :
    (∃ changed, Alike input changed ∧ line changed ≠ line input) ∨
      line (line input) ≠ line input := by
  induction input using pairs_induction with
  | none input absent =>
      refine absurd ?_ other
      intro pair member
      rw [pairs_none absent] at member
      cases member
  | pair front blanks tail opened begins ih =>
      have longer : ∀ {long input : List Char}, input.length + 1 ≤ long.length → long ≠ input := by
        rintro long input bound rfl
        omega
      rcases opened.bare with bare | passes
      · by_cases form : (readValue tail).form = .escaped
        · refine .inl ⟨_, alike_filler opened begins
            ((line (front ++ (blanks ++ tail))).length + 1), longer ?_⟩
          rw [form]
          exact length_escaped opened bare _ _
        · by_cases next : ∀ character ∈ (readValue tail).rest.head?, endsValue character = true
          · have rest : ¬Plain (readValue tail).rest := fun plain =>
              other ((plain_front opened begins).mpr ⟨⟨bare, form, next⟩, plain⟩)
            have image := line_front opened bare begins
            rw [afterValue_eq form] at image
            rcases ih rest with ⟨changed, alike, differs⟩ | twice
            · left
              have head := alike.head
              have begins' : ((readValue tail).text ++ changed).head? ≠ some ' ' := by
                rw [head_again head.symm]
                exact begins
              have read := readValue_again head.symm
              refine ⟨front ++ (blanks ++ ((readValue tail).text ++ changed)), ?_, ?_⟩
              · unfold Alike
                rw [pairs_front opened begins, pairs_front opened begins', read]
                simp only [List.map_cons, head]
                exact ⟨congrArg _ alike.1, alike.2⟩
              · rw [image, line_front opened bare begins', afterValue_eq (by rwa [read]), read]
                simpa using differs
            · right
              rw [image, line_redacted opened bare, dropWhile_line next]
              simpa using twice
          · right
            rw [line_front opened bare begins, afterValue_eq form, line_redacted opened bare]
            intro same
            have same := List.append_cancel_left (List.append_cancel_left
              (List.append_cancel_left same))
            have head := congrArg List.head? same
            push Not at next
            obtain ⟨first, mine, goes⟩ := next
            rw [head_line, head_line, mine] at head
            have kept := List.head?_dropWhile_not (fun character => !endsValue character)
              (line (readValue tail).rest)
            rw [head] at kept
            exact goes (by simpa using kept)
      · exact .inl ⟨_, alike_filler opened begins
          ((line (front ++ (blanks ++ tail))).length + 1),
          longer (length_passes opened passes _ _ _)⟩

end Front

/-- **What a line's redaction tells of its values.** Nothing, and a second run changes
nothing, just where its pairs are plain; a line with no pairs is unchanged. -/
theorem line_redacts (input : List Char) :
    (((∀ changed, Alike input changed → line changed = line input) ∧
      line (line input) = line input ∧ ((pairs input).1 = [] → line input = input)) ↔
        Plain input) ∧
    ∀ other, Plain input → Plain other → Same input other → line input = line other := by
  refine ⟨⟨?_, fun plain => ⟨?_, line_line plain, line_unchanged⟩⟩,
    fun other plain plain' same => line_same same plain plain'⟩
  · rintro ⟨hidden, once, _⟩
    by_contra other
    rcases not_plain other with ⟨changed, alike, differs⟩ | twice
    · exact differs (hidden changed alike)
    · exact twice once
  · intro changed alike
    exact (line_same alike.same plain (alike.plain plain)).symm

/-- An escaped quote and a quoted key leave the value in the line; text right after a
quoted value is dropped by the second run. -/
theorem line_leaves :
    (Same "password=\"hunter\\\"2\"".toList "password=\"hunter\\\"3\"".toList ∧
      line "password=\"hunter\\\"2\"".toList ≠ line "password=\"hunter\\\"3\"".toList) ∧
    (Same "\"token\":\"abc\"".toList "\"token\":\"abd\"".toList ∧
      line "\"token\":\"abc\"".toList ≠ line "\"token\":\"abd\"".toList) ∧
    line (line "token=\"a\"b".toList) ≠ line "token=\"a\"b".toList := by
  decide +kernel

end Renvor.Redact
