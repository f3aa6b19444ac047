import Mathlib.Data.Bool.AllAny
import Renvor.Metrics.Numerals

/-! # Reading what is rendered

The rendering of a snapshot is read as one sample for every scalar series, and for every
histogram series as one for each of its buckets, its sum and its count, the labels' values
as they are (`Renvor.Metrics.parse_render`).
-/

namespace Renvor.Metrics

open Foundation Exposition

variable {text rest value : List Char} {name : List Char} {pairs : List (List Char × List Char)}

/-! ## Blanks and names -/

/-- Skipping blanks takes nothing off a text that begins with another character. -/
theorem skip_solid {first : Char} (solid : isBlank first = false) :
    skip (first :: rest) = first :: rest := by
  unfold skip
  rw [List.dropWhile_cons_of_neg (by simp [solid])]

/-- A name is read in full in front of a text whose first character cannot continue it. -/
theorem readName_append {start part : Char → Bool} {first : Char}
    (starts : start first = true) (parts : ∀ character ∈ name, part character = true)
    (ends : ∀ next ∈ rest.head?, part next = false) :
    readName start part (first :: name ++ rest) = some (first :: name, rest) := by
  have stop : rest.takeWhile part = [] ∧ rest.dropWhile part = rest := by
    cases rest with
    | nil => exact ⟨rfl, rfl⟩
    | cons next later =>
        have kept : ¬part next = true := by simp [ends next rfl]
        exact ⟨List.takeWhile_cons_of_neg kept, List.dropWhile_cons_of_neg kept⟩
  rw [List.cons_append, readName, if_pos starts, List.takeWhile_append_of_pos parts,
    List.dropWhile_append_of_pos parts, stop.1, stop.2, List.append_nil]

/-- A name in the alphabet of labels, or of metrics. -/
structure Named (start part : Char → Bool) (name : List Char) : Prop where
  form : ∃ first rest, name = first :: rest ∧ start first = true ∧
    ∀ character ∈ rest, part character = true

/-- A name of the alphabet is read in full, and what follows it is left to the reader. -/
theorem Named.read {start part : Char → Bool} (named : Named start part name)
    (ends : ∀ next ∈ rest.head?, part next = false) :
    readName start part (name ++ rest) = some (name, rest) := by
  obtain ⟨first, others, rfl, starts, parts⟩ := named
  exact readName_append starts parts ends

/-- A label's name that the registry admits is a name in the alphabet of labels. -/
theorem named_label {label : String} (valid : validLabelName label = true) :
    Named isLabelStart isLabelPart label.toList := by
  unfold validLabelName at valid
  split at valid
  next => cases valid
  next first rest same =>
    simp only [Bool.and_eq_true, List.all_eq_true] at valid
    obtain ⟨⟨_, starts⟩, parts⟩ := valid
    exact ⟨first, rest, same, starts, fun character member =>
      parts character (List.mem_cons_of_mem _ member)⟩

/-- A metric's name that the registry admits is a name in the alphabet of metrics. -/
theorem named_metric {metric : String} (valid : validMetricName metric = true) :
    Named isNameStart isNamePart metric.toList := by
  unfold validMetricName at valid
  split at valid
  next => cases valid
  next first rest same =>
    simp only [Bool.and_eq_true, List.all_eq_true] at valid
    obtain ⟨⟨_, starts⟩, parts⟩ := valid
    exact ⟨first, rest, same, starts, fun character member =>
      parts character (List.mem_cons_of_mem _ member)⟩

/-- A name may be continued. -/
theorem Named.append {start part : Char → Bool} (named : Named start part name)
    (parts : ∀ character ∈ rest, part character = true) : Named start part (name ++ rest) := by
  obtain ⟨first, others, rfl, starts, inner⟩ := named
  refine ⟨first, others ++ rest, rfl, starts, fun character member => ?_⟩
  cases List.mem_append.mp member with
  | inl left => exact inner character left
  | inr right => exact parts character right

/-- A character that may start a metric is none of those that mean something else to the reader
of a line. -/
theorem solid_of_start {first : Char} (starts : isNameStart first = true) :
    isBlank first = false ∧ first ≠ '#' ∧ first ≠ '}' ∧ first ≠ '\n' := by
  refine ⟨Bool.eq_false_iff.mpr ?_, ?_, ?_, ?_⟩
  · intro blank
    unfold isBlank at blank
    rw [Bool.or_eq_true, decide_eq_true_iff, decide_eq_true_iff] at blank
    cases blank with
    | inl same => exact absurd (same ▸ starts) (by decide)
    | inr same => exact absurd (same ▸ starts) (by decide)
  all_goals
    rintro rfl
    exact absurd starts (by decide)

/-! ## Labels -/

/-- A value is escaped character by character, since no escape looks at what stands beside it. -/
theorem escapeLabel_cons (character : Char) (text : List Char) :
    escapeLabel (character :: text) = escapeLabel [character] ++ escapeLabel text := by
  simp only [escapeLabel, replace, List.flatMap_cons, List.flatMap_nil, List.append_nil,
    List.flatMap_append]

/-- Only the backslash, the quote and the line feed are escaped in a value. -/
theorem escapeLabel_plain {character : Char} (slash : character ≠ '\\') (quote : character ≠ '"')
    (feed : character ≠ '\n') : escapeLabel [character] = [character] := by
  simp [escapeLabel, replace, slash, quote, feed]

/-- A bound that is written as a numeral has nothing in it to escape. -/
theorem escapeLabel_clean (clean : ∀ character ∈ text, isNumeral character = true) :
    escapeLabel text = text := by
  induction text with
  | nil => rfl
  | cons character text ih =>
      have numeral := clean character List.mem_cons_self
      have plain : character ≠ '\\' ∧ character ≠ '"' ∧ character ≠ '\n' := by
        refine ⟨?_, ?_, ?_⟩ <;>
        · rintro rfl
          exact absurd numeral (by decide)
      rw [escapeLabel_cons, escapeLabel_plain plain.1 plain.2.1 plain.2.2,
        ih fun other member => clean other (List.mem_cons_of_mem _ member)]
      rfl

/-- **A label's value is read back.** -/
theorem readQuoted_escape : readQuoted (escapeLabel value ++ '"' :: rest) = some (value, rest) := by
  induction value with
  | nil => rfl
  | cons character value ih =>
      rw [escapeLabel_cons, List.append_assoc]
      by_cases slash : character = '\\'
      · rw [slash, show escapeLabel ['\\'] = ['\\', '\\'] from rfl]
        simp only [List.cons_append, List.nil_append, readQuoted, ih, Option.map_some]
      by_cases quote : character = '"'
      · rw [quote, show escapeLabel ['"'] = ['\\', '"'] from rfl]
        simp only [List.cons_append, List.nil_append, readQuoted, ih, Option.map_some]
      by_cases feed : character = '\n'
      · rw [feed, show escapeLabel ['\n'] = ['\\', 'n'] from rfl]
        simp only [List.cons_append, List.nil_append, readQuoted, ih, Option.map_some]
      · rw [escapeLabel_plain slash quote feed, List.singleton_append]
        unfold readQuoted
        split
        next same => exact (quote (List.cons.inj same).1).elim
        next same => exact (slash (List.cons.inj same).1).elim
        next same => exact (slash (List.cons.inj same).1).elim
        next same => exact (slash (List.cons.inj same).1).elim
        next same => exact (slash (List.cons.inj same).1).elim
        next same =>
          obtain ⟨rfl, rfl⟩ := List.cons.inj same
          rw [ih]
          rfl
        next same => cases same

/-- One label as it is written: its name, and its escaped value between quotes. -/
def pairText (pair : List Char × List Char) : List Char :=
  pair.1 ++ '=' :: '"' :: escapeLabel pair.2 ++ ['"']

/-- Labels as they are written, between braces, or nothing at all where there are none. -/
def labelText (pairs : List (List Char × List Char)) : List Char :=
  if pairs.isEmpty then [] else '{' :: List.intercalate [','] (pairs.map pairText) ++ ['}']

/-- The labels of a series, as characters. -/
def spell (labels : List (String × String)) : List (List Char × List Char) :=
  labels.map fun label => (label.1.toList, label.2.toList)

/-- What the renderer writes for the labels of a series, with one more for a bucket, are those
labels between braces. -/
theorem labels_eq (series : List (String × String)) (extra : Option (List Char × List Char))
    (clean : ∀ pair ∈ extra, escapeLabel pair.2 = pair.2) :
    labels series extra = labelText (spell series ++ extra.toList) := by
  have texts : series.map (fun label =>
        label.1.toList ++ '=' :: '"' :: escapeLabel label.2.toList ++ ['"']) ++
      extra.toList.map (fun label => label.1 ++ '=' :: '"' :: label.2 ++ ['"']) =
      (spell series ++ extra.toList).map pairText := by
    rw [List.map_append, spell, List.map_map]
    congr 1
    cases extra with
    | none => rfl
    | some pair =>
        have same := clean pair rfl
        simp [pairText, same]
  unfold labels labelText
  simp only [texts, List.isEmpty_iff, List.map_eq_nil_iff]

/-- A written label is read back, and the reader goes on after a comma and stops at the closing
brace. -/
theorem readLabels_pair {pair : List Char × List Char} {fuel : Nat}
    (named : Named isLabelStart isLabelPart pair.1) :
    readLabels (fuel + 1) (pairText pair ++ ',' :: rest) =
      (readLabels fuel rest).map (fun read => (pair :: read.1, read.2)) ∧
    readLabels (fuel + 1) (pairText pair ++ '}' :: rest) = some ([pair], rest) := by
  have form (mark : Char) : pairText pair ++ mark :: rest =
      pair.1 ++ '=' :: '"' :: (escapeLabel pair.2 ++ '"' :: mark :: rest) := by
    simp [pairText]
  have read (mark : Char) : readName isLabelStart isLabelPart (pairText pair ++ mark :: rest) =
      some (pair.1, '=' :: '"' :: (escapeLabel pair.2 ++ '"' :: mark :: rest)) := by
    rw [form]
    exact named.read fun next member => by
      rw [← Option.some.inj member]
      decide
  have head (mark : Char) : ∃ first later, pairText pair ++ mark :: rest = first :: later ∧
      isBlank first = false ∧ first ≠ '}' := by
    obtain ⟨first, others, same, starts, _⟩ := named
    have starts' : isNameStart first = true := by rw [isNameStart, starts]; rfl
    have solid := solid_of_start starts'
    exact ⟨first, others ++ '=' :: '"' :: (escapeLabel pair.2 ++ '"' :: mark :: rest),
      by rw [form, same]; rfl, solid.1, solid.2.2.1⟩
  have mark (mark : Char) (solid : isBlank mark = false) {rest : List Char} :
      skip (mark :: rest) = mark :: rest := skip_solid solid
  constructor
  · obtain ⟨first, later, same, solid, brace⟩ := head ','
    have read := read ','
    rw [same] at read ⊢
    rw [readLabels, skip_solid solid]
    split
    next braced => exact (brace (List.cons.inj braced).1).elim
    next =>
      simp only [read, Option.bind_eq_bind, Option.bind_some, mark '=' rfl, mark '"' rfl,
        readQuoted_escape, mark ',' rfl]
      cases readLabels fuel rest <;> rfl
  · obtain ⟨first, later, same, solid, brace⟩ := head '}'
    have read := read '}'
    rw [same] at read ⊢
    rw [readLabels, skip_solid solid]
    split
    next braced => exact (brace (List.cons.inj braced).1).elim
    next =>
      simp only [read, Option.bind_eq_bind, Option.bind_some, mark '=' rfl, mark '"' rfl,
        readQuoted_escape, mark '}' rfl]

/-- **Labels are read back.** -/
theorem readLabels_pairs {fuel : Nat} (some_pairs : pairs ≠ []) (enough : pairs.length ≤ fuel)
    (named : ∀ pair ∈ pairs, Named isLabelStart isLabelPart pair.1) :
    readLabels fuel (List.intercalate [','] (pairs.map pairText) ++ '}' :: rest) =
      some (pairs, rest) := by
  induction pairs generalizing fuel with
  | nil => exact (some_pairs rfl).elim
  | cons pair others ih =>
      obtain ⟨fuel, rfl⟩ : ∃ less, fuel = less + 1 := by
        cases fuel with
        | zero => exact absurd enough (Nat.not_succ_le_zero _)
        | succ less => exact ⟨less, rfl⟩
      have first := named pair List.mem_cons_self
      cases others with
      | nil => simpa [List.intercalate] using (readLabels_pair first).2
      | cons next later =>
          have read := ih (List.cons_ne_nil next later) (Nat.le_of_succ_le_succ enough)
            fun pair member => named pair (List.mem_cons_of_mem _ member)
          have split : List.intercalate [','] ((pair :: next :: later).map pairText) ++
                '}' :: rest = pairText pair ++ ',' ::
              (List.intercalate [','] ((next :: later).map pairText) ++ '}' :: rest) := by
            simp [List.intercalate]
          rw [split, (readLabels_pair first).1, read]
          rfl

/-! ## Lines -/

/-- The characters of numerals are neither blanks nor line feeds, so a number is one word of a
line. -/
theorem numeral_solid {character : Char} (numeral : isNumeral character = true) :
    isBlank character = false ∧ character ≠ '\n' := by
  refine ⟨Bool.eq_false_iff.mpr fun blank => ?_, ?_⟩
  · unfold isBlank at blank
    rw [Bool.or_eq_true, decide_eq_true_iff, decide_eq_true_iff] at blank
    cases blank with
    | inl same => exact absurd (same ▸ numeral) (by decide)
    | inr same => exact absurd (same ▸ numeral) (by decide)
  · rintro rfl
    exact absurd numeral (by decide)

/-- A value in a sample's line. -/
structure Numeral (value : List Char) : Prop where
  number : isNumber value = true
  plain : ∀ character ∈ value, isNumeral character = true

/-- The reader skips the blank in front of a number and nothing of the number itself. -/
theorem Numeral.skip (numeral : Numeral value) : Exposition.skip (' ' :: value) = value := by
  cases value with
  | nil => exact absurd numeral.number (by decide)
  | cons first rest =>
      exact skip_solid (numeral_solid (numeral.plain first List.mem_cons_self)).1

/-- The number at the end of a line is read as it was written. -/
theorem Numeral.read (numeral : Numeral value) : readValue (' ' :: value) = some value := by
  have solid : ∀ character ∈ value, (!isBlank character) = true := fun character member => by
    rw [(numeral_solid (numeral.plain character member)).1]
    rfl
  have whole : value ++ [] = value := List.append_nil value
  have takes : value.takeWhile (!isBlank ·) = value := by
    rw [← whole, List.takeWhile_append_of_pos solid]
    rfl
  have drops : value.dropWhile (!isBlank ·) = [] := by
    rw [← whole, List.dropWhile_append_of_pos solid]
    rfl
  unfold readValue
  simp only [numeral.skip, takes, drops]
  rw [numeral.number]
  rfl

/-- The labels in front of a number are read back, also where there are none and no braces
either. -/
theorem readBraces_text (labeled : ∀ pair ∈ pairs, Named isLabelStart isLabelPart pair.1)
    (numeral : Numeral value) :
    readBraces (labelText pairs ++ ' ' :: value) = some (pairs, ' ' :: value) := by
  unfold readBraces labelText
  by_cases empty : pairs = []
  · rw [if_pos (List.isEmpty_iff.mpr empty), empty, List.nil_append, numeral.skip]
    split
    next =>
      have brace := numeral.plain '{' List.mem_cons_self
      exact absurd brace (by decide)
    next => rfl
  · have enough : pairs.length ≤
        (List.intercalate [','] (pairs.map pairText) ++ '}' :: ' ' :: value).length := by
      have longer (pairs : List (List Char × List Char)) :
          pairs.length ≤ (List.intercalate [','] (pairs.map pairText)).length := by
        induction pairs with
        | nil => exact Nat.zero_le _
        | cons pair others ih =>
            cases others with
            | nil => simp [List.intercalate, pairText]; omega
            | cons next later =>
                have split : List.intercalate [','] ((pair :: next :: later).map pairText) =
                    pairText pair ++ ',' ::
                      List.intercalate [','] ((next :: later).map pairText) := by
                  simp [List.intercalate]
                rw [split, List.length_append, List.length_cons, List.length_cons]
                exact Nat.le_trans (Nat.succ_le_succ ih) (Nat.le_add_left _ _)
      exact Nat.le_trans (longer pairs) (by simp)
    have text : '{' :: List.intercalate [','] (pairs.map pairText) ++ ['}'] ++ ' ' :: value =
        '{' :: (List.intercalate [','] (pairs.map pairText) ++ '}' :: ' ' :: value) := by
      simp
    rw [if_neg (by simp [empty]), text, skip_solid (by decide)]
    exact readLabels_pairs empty enough labeled

/-- **A sample's line is read back.** -/
theorem readLine_sample (named : Named isNameStart isNamePart name)
    (labeled : ∀ pair ∈ pairs, Named isLabelStart isLabelPart pair.1) (numeral : Numeral value) :
    readLine (name ++ labelText pairs ++ ' ' :: value) = some (some ⟨name, pairs, value⟩) := by
  have ends : ∀ next ∈ (labelText pairs ++ ' ' :: value).head?, isNamePart next = false := by
    intro next member
    unfold labelText at member
    split at member
    · rw [← Option.some.inj member]
      decide
    · rw [← Option.some.inj member]
      decide
  have read := named.read ends
  have sample : readSample (name ++ labelText pairs ++ ' ' :: value) =
      some ⟨name, pairs, value⟩ := by
    unfold readSample
    rw [List.append_assoc, read]
    simp only [Option.bind_eq_bind, Option.bind_some, readBraces_text labeled numeral, numeral.read]
  obtain ⟨first, others, same, starts, _⟩ := named
  obtain ⟨solid, hash, -, -⟩ := solid_of_start starts
  have text : name ++ labelText pairs ++ ' ' :: value =
      first :: (others ++ labelText pairs ++ ' ' :: value) := by
    rw [same]
    rfl
  rw [text] at sample ⊢
  unfold readLine
  rw [skip_solid solid]
  split
  next empty => cases empty
  next comment => exact (hash (List.cons.inj comment).1).elim
  next => rw [sample, Option.map_some]

/-! ## Comments -/

/-- A word between blanks. -/
structure Word (word : List Char) : Prop where
  filled : word ≠ []
  solid : ∀ character ∈ word, isBlank character = false

/-- A word of a comment is taken in full, up to the blank behind it or the end of the line. -/
theorem Word.read {word : List Char} (is : Word word) (ends : ∀ next ∈ rest.head?, isBlank next = true) :
    skip (' ' :: (word ++ rest)) = word ++ rest ∧
      (word ++ rest).takeWhile (!isBlank ·) = word ∧
        (word ++ rest).dropWhile (!isBlank ·) = rest := by
  have solid : ∀ character ∈ word, (!isBlank character) = true := fun character member => by
    rw [is.solid character member]
    rfl
  have stop : rest.takeWhile (!isBlank ·) = [] ∧ rest.dropWhile (!isBlank ·) = rest := by
    cases rest with
    | nil => exact ⟨rfl, rfl⟩
    | cons next later =>
        have blank : ¬(!isBlank next) = true := by simp [ends next rfl]
        exact ⟨List.takeWhile_cons_of_neg blank, List.dropWhile_cons_of_neg blank⟩
  rw [List.takeWhile_append_of_pos solid, List.dropWhile_append_of_pos solid, stop.1, stop.2,
    List.append_nil]
  refine ⟨?_, rfl, rfl⟩
  cases word with
  | nil => exact (is.filled rfl).elim
  | cons first others => exact skip_solid (is.solid first List.mem_cons_self)

/-- A character that may continue a name is neither a blank nor a line feed. -/
theorem solid_of_part {character : Char} (part : isNamePart character = true) :
    isBlank character = false ∧ character ≠ '\n' := by
  refine ⟨Bool.eq_false_iff.mpr fun blank => ?_, ?_⟩
  · unfold isBlank at blank
    rw [Bool.or_eq_true, decide_eq_true_iff, decide_eq_true_iff] at blank
    cases blank with
    | inl same => exact absurd (same ▸ part) (by decide)
    | inr same => exact absurd (same ▸ part) (by decide)
  · rintro rfl
    exact absurd part (by decide)

/-- A metric has no blanks and no line feeds in its name, and so stays on one line. -/
theorem Named.solid (named : Named isNameStart isNamePart name) :
    ∀ character ∈ name, isBlank character = false ∧ character ≠ '\n' := by
  obtain ⟨first, others, rfl, starts, parts⟩ := named
  intro character member
  rcases List.mem_cons.mp member with same | later
  · rw [same]
    exact ⟨(solid_of_start starts).1, (solid_of_start starts).2.2.2⟩
  · exact solid_of_part (parts character later)

/-- A name of a metric is one word of a comment, and does not run into the text behind it. -/
theorem Named.word (named : Named isNameStart isNamePart name) : Word name where
  filled := by
    obtain ⟨first, others, rfl, _⟩ := named
    exact List.cons_ne_nil _ _
  solid character member := (named.solid character member).1

/-- A name is read to its end, as the reader asks of the metric that a comment is about. -/
theorem Named.whole (named : Named isNameStart isNamePart name) :
    (readName isNameStart isNamePart name).any (fun read => read.2.isEmpty) = true := by
  have ends : ∀ next ∈ ([] : List Char).head?, isNamePart next = false :=
    fun _ member => nomatch member
  have read := named.read ends
  rw [List.append_nil] at read
  rw [read]
  rfl

/-- What begins with a blank has a blank for its first character. -/
theorem head_blank (rest : List Char) : ∀ next ∈ (' ' :: rest).head?, isBlank next = true := by
  intro next member
  rw [← Option.some.inj member]
  rfl

/-- A line of help is a comment, whatever is written behind the name of the metric. -/
theorem readLine_help (named : Named isNameStart isNamePart name) (help : List Char) :
    readLine ("# HELP ".toList ++ name ++ ' ' :: help) = some none := by
  have word : Word "HELP".toList := ⟨by decide, List.all_iff_forall_prop.mp rfl⟩
  have first := word.read (head_blank (name ++ ' ' :: help))
  have second := named.word.read (head_blank help)
  have comment : isComment (' ' :: ("HELP".toList ++ ' ' :: (name ++ ' ' :: help))) = true := by
    unfold isComment
    simp only [first.1, first.2.1, first.2.2, second.1, second.2.1, if_true]
    exact named.whole
  have text : "# HELP ".toList ++ name ++ ' ' :: help =
      '#' :: ' ' :: ("HELP".toList ++ ' ' :: (name ++ ' ' :: help)) := by
    simp
  rw [text]
  unfold readLine
  rw [skip_solid (by decide)]
  exact if_pos comment

/-- A line that declares the type of a metric is a comment for each of the kinds there are. -/
theorem readLine_type (named : Named isNameStart isNamePart name) (kind : InstrumentKind) :
    readLine ("# TYPE ".toList ++ name ++ ' ' :: kind.asStr.toList) = some none := by
  have word : Word "TYPE".toList := ⟨by decide, List.all_iff_forall_prop.mp rfl⟩
  have kinds : Word kind.asStr.toList := by
    cases kind <;> exact ⟨by decide, List.all_iff_forall_prop.mp rfl⟩
  have first := word.read (head_blank (name ++ ' ' :: (kind.asStr.toList ++ [])))
  have second := named.word.read (head_blank (kind.asStr.toList ++ []))
  have ends : ∀ next ∈ ([] : List Char).head?, isBlank next = true :=
    fun _ member => nomatch member
  have third := kinds.read ends
  have comment : isComment (' ' :: ("TYPE".toList ++ ' ' ::
      (name ++ ' ' :: (kind.asStr.toList ++ [])))) = true := by
    unfold isComment
    simp only [first.1, first.2.1, first.2.2, second.1, second.2.1, second.2.2, third.1, third.2.1,
      third.2.2]
    rw [if_neg (by decide), if_pos True.intro]
    simp only [named.whole]
    cases kind <;> decide
  have text : "# TYPE ".toList ++ name ++ ' ' :: kind.asStr.toList =
      '#' :: ' ' :: ("TYPE".toList ++ ' ' :: (name ++ ' ' :: (kind.asStr.toList ++ []))) := by
    simp
  rw [text]
  unfold readLine
  rw [skip_solid (by decide)]
  exact if_pos comment

/-! ## Texts -/

/-- A written line without a line feed inside is read as one line, and the rest after it. -/
theorem readLines_line (one : '\n' ∉ text) :
    readLines (line text ++ rest) = (readLines rest).map (text :: ·) := by
  induction text with
  | nil =>
      rw [line, List.nil_append, List.singleton_append, readLines, if_pos rfl]
  | cons character text ih =>
      have other : character ≠ '\n' := fun same => one (same ▸ List.mem_cons_self)
      have later := ih fun member => one (List.mem_cons_of_mem _ member)
      rw [line, List.cons_append, List.cons_append, readLines, if_neg other]
      rw [line] at later
      rw [later]
      cases readLines rest <;> rfl

/-- A text that reads as samples in front of any other. -/
def Reads (text : List Char) (samples : List Sample) : Prop :=
  ∀ rest read, parse rest = some read → parse (text ++ rest) = some (samples ++ read)

/-- An empty text adds no sample to what follows it. -/
theorem reads_nil : Reads [] [] := fun _ _ parsed => parsed

/-- Two texts that read as samples read as the samples of both, in their order. -/
theorem Reads.append {other : List Char} {samples others : List Sample}
    (first : Reads text samples) (second : Reads other others) :
    Reads (text ++ other) (samples ++ others) := by
  intro rest read parsed
  rw [List.append_assoc, List.append_assoc]
  exact first _ _ (second rest read parsed)

/-- Texts written one after the other read as the samples of all of them, by induction on the
items. -/
theorem Reads.flatMap {Item : Type*} {items : List Item} {texts : Item → List Char}
    {samples : Item → List Sample} (each : ∀ item ∈ items, Reads (texts item) (samples item)) :
    Reads (items.flatMap texts) (items.flatMap samples) := by
  induction items with
  | nil => exact reads_nil
  | cons item rest ih =>
      rw [List.flatMap_cons, List.flatMap_cons]
      exact (each item List.mem_cons_self).append
        (ih fun other member => each other (List.mem_cons_of_mem _ member))

/-- A line that is read as a sample, or as a comment, adds that sample, or none, to what follows. -/
theorem reads_line {sample : Option Sample} (one : '\n' ∉ text)
    (read : readLine text = some sample) : Reads (line text) sample.toList := by
  intro rest samples parsed
  unfold parse at parsed ⊢
  rw [readLines_line one]
  cases lines : readLines rest with
  | none => rw [lines] at parsed; cases parsed
  | some lines' =>
      rw [lines] at parsed
      simp only [Option.bind_eq_bind, Option.bind_some, Option.map_some, List.mapM_cons, read,
        Option.pure_def] at parsed ⊢
      cases reads : lines'.mapM readLine with
      | none => rw [reads] at parsed; cases parsed
      | some others =>
          rw [reads] at parsed
          cases parsed
          cases sample <;> rfl

/-- A text that reads as samples in front of any other is parsed as these samples by itself. -/
theorem Reads.parse {samples : List Sample} (reads : Reads text samples) :
    Metrics.parse text = some samples := by
  have whole := reads [] [] rfl
  rwa [List.append_nil, List.append_nil] at whole

/-! ## Renderings -/

/-- An escaped value has no line feed, since the ones it had are written as a backslash and a
letter. -/
theorem escapeLabel_feed (value : List Char) : '\n' ∉ escapeLabel value := by
  induction value with
  | nil => exact fun member => nomatch member
  | cons character value ih =>
      rw [escapeLabel_cons, List.mem_append, not_or]
      refine ⟨?_, ih⟩
      by_cases slash : character = '\\'
      · rw [slash]
        decide
      by_cases quote : character = '"'
      · rw [quote]
        decide
      by_cases feed : character = '\n'
      · rw [feed]
        decide
      · rw [escapeLabel_plain slash quote feed, List.mem_singleton]
        exact Ne.symm feed

/-- An escaped line of help has no line feed left in it. -/
theorem escapeHelp_feed (help : List Char) : '\n' ∉ escapeHelp help := by
  intro member
  obtain ⟨character, _, written⟩ := List.mem_flatMap.mp member
  split at written
  next => exact absurd written (by decide)
  next other => exact other (List.mem_singleton.mp written).symm

/-- A label's name is a name in the alphabet of metrics too, which has the colon besides. -/
theorem named_of_label (named : Named isLabelStart isLabelPart name) :
    Named isNameStart isNamePart name := by
  obtain ⟨first, others, same, starts, parts⟩ := named
  refine ⟨first, others, same, by rw [isNameStart, starts]; rfl, fun character member => ?_⟩
  rw [isNamePart, parts character member]
  rfl

/-- Labels are written on one line, whatever line feeds their values have. -/
theorem labelText_feed (labeled : ∀ pair ∈ pairs, Named isLabelStart isLabelPart pair.1) :
    '\n' ∉ labelText pairs := by
  have each : ∀ pair ∈ pairs, '\n' ∉ pairText pair := by
    intro pair held member
    have name : '\n' ∉ pair.1 := fun inside =>
      ((named_of_label (labeled pair held)).solid _ inside).2 rfl
    simp [pairText, name, escapeLabel_feed] at member
  have joined : '\n' ∉ List.intercalate [','] (pairs.map pairText) := by
    clear labeled
    induction pairs with
    | nil => exact fun member => nomatch member
    | cons pair others ih =>
        have first := each pair List.mem_cons_self
        have later := ih fun pair held => each pair (List.mem_cons_of_mem _ held)
        cases others with
        | nil => simpa [List.intercalate] using first
        | cons next rest =>
            have split : List.intercalate [','] ((pair :: next :: rest).map pairText) =
                pairText pair ++ ',' :: List.intercalate [','] ((next :: rest).map pairText) := by
              simp [List.intercalate]
            rw [split, List.mem_append, List.mem_cons, not_or, not_or]
            exact ⟨first, by decide, later⟩
  unfold labelText
  split
  · exact fun member => nomatch member
  · simp [joined]

/-- A number is written without a line feed. -/
theorem Numeral.feed (numeral : Numeral value) : '\n' ∉ value := fun member =>
  (numeral_solid (numeral.plain _ member)).2 rfl

/-- **A sample is read back.** -/
theorem reads_sample (named : Named isNameStart isNamePart name)
    (labeled : ∀ pair ∈ pairs, Named isLabelStart isLabelPart pair.1) (numeral : Numeral value) :
    Reads (sampleLine name (labelText pairs) value) [⟨name, pairs, value⟩] := by
  refine reads_line ?_ (readLine_sample named labeled numeral)
  have name_feed : '\n' ∉ name := fun member => (named.solid _ member).2 rfl
  simp [name_feed, labelText_feed labeled, numeral.feed]

/-- A finite double is written as a numeral that the reader takes for a number. -/
theorem numeral_finite (value : Binary64) : Numeral (number (.finite value)) :=
  ⟨(number_finite value).1, (number_finite value).2⟩

/-- A count is written as a numeral that the reader takes for a number. -/
theorem numeral_unsigned (count : UInt64) : Numeral (unsigned count) :=
  ⟨(written_unsigned count).isNumber, (written_unsigned count).numeral⟩

/-- The samples of a series. -/
def seriesSamples (name : List Char) (series : Series Double) : List Sample :=
  match series.value with
  | .scalar milli => [⟨name, spell series.labels, number (fromMilli milli)⟩]
  | .histogram bounds counts sumMilli count =>
      ((bounds.zip counts).map fun (bound, cumulative) =>
        ⟨name ++ "_bucket".toList, spell series.labels ++ [("le".toList, number bound)],
          unsigned cumulative⟩) ++
      (counts[bounds.length]?.toList.map fun last =>
        ⟨name ++ "_bucket".toList, spell series.labels ++ [("le".toList, "+Inf".toList)],
          unsigned last⟩) ++
      [⟨name ++ "_sum".toList, spell series.labels, number (fromMilli sumMilli)⟩] ++
      [⟨name ++ "_count".toList, spell series.labels, unsigned count⟩]

/-- Names are names, and bounds are finite. -/
structure Exposable (family : FamilySnapshot Double) : Prop where
  name : validMetricName family.name = true
  labels : ∀ series ∈ family.series, ∀ label ∈ series.labels, validLabelName label.1 = true
  bounds : ∀ series ∈ family.series, ∀ bounds counts sumMilli count,
    series.value = .histogram bounds counts sumMilli count →
      ∀ bound ∈ bounds, ∃ value, bound = .finite value

/-- The lines of one series read as its samples: a scalar as one, a histogram as its buckets, its
sum and its count. -/
theorem reads_series {metric : String} {series : Series Double}
    (valid : validMetricName metric = true)
    (labeled : ∀ label ∈ series.labels, validLabelName label.1 = true)
    (finite : ∀ bounds counts sumMilli count,
      series.value = .histogram bounds counts sumMilli count →
        ∀ bound ∈ bounds, ∃ value, bound = .finite value) :
    Reads (renderSeries metric.toList series) (seriesSamples metric.toList series) := by
  have named := named_metric valid
  have suffixed (suffix : String) (parts : suffix.toList.all isNamePart = true) :
      Named isNameStart isNamePart (metric.toList ++ suffix.toList) :=
    named.append (List.all_eq_true.mp parts)
  have plain : ∀ pair ∈ spell series.labels, Named isLabelStart isLabelPart pair.1 := by
    intro pair held
    obtain ⟨label, member, rfl⟩ := List.mem_map.mp held
    exact named_label (labeled label member)
  have bare : labels series.labels none = labelText (spell series.labels) := by
    rw [labels_eq _ none fun _ member => nomatch member]
    simp
  have bounded {text : List Char} (clean : escapeLabel text = text) :
      labels series.labels (some ("le".toList, text)) =
        labelText (spell series.labels ++ [("le".toList, text)]) := by
    refine labels_eq _ _ ?_
    rintro _ ⟨⟩
    exact clean
  have extended (text : List Char) : ∀ pair ∈ spell series.labels ++ [("le".toList, text)],
      Named isLabelStart isLabelPart pair.1 := by
    intro pair held
    rcases List.mem_append.mp held with own | extra
    · exact plain pair own
    · rw [List.mem_singleton.mp extra]
      have bound : validLabelName "le" = true := by decide
      exact named_label bound
  unfold renderSeries seriesSamples
  cases form : series.value with
  | scalar milli =>
      simp only
      rw [bare]
      exact reads_sample named plain (numeral_finite _)
  | histogram bounds counts sumMilli count =>
      simp only
      refine ((Reads.append ?_ ?_).append ?_).append ?_
      · rw [List.map_eq_flatMap]
        refine Reads.flatMap fun (bound, cumulative) held => ?_
        obtain ⟨value, rfl⟩ := finite _ _ _ _ form bound (List.of_mem_zip held).1
        simp only
        rw [bounded (escapeLabel_clean (numeral_finite value).plain)]
        exact reads_sample (suffixed "_bucket" (by decide)) (extended _) (numeral_unsigned _)
      · cases counts[bounds.length]? with
        | none => exact reads_nil
        | some last =>
            simp only
            rw [bounded (by decide)]
            exact reads_sample (suffixed "_bucket" (by decide)) (extended _) (numeral_unsigned _)
      · rw [bare]
        exact reads_sample (suffixed "_sum" (by decide)) plain (numeral_finite _)
      · rw [bare]
        exact reads_sample (suffixed "_count" (by decide)) plain (numeral_unsigned _)

/-- **What is rendered is read as the samples of its series.** -/
theorem parse_render {snapshot : List (FamilySnapshot Double)}
    (exposable : ∀ family ∈ snapshot, Exposable family) :
    parse (render snapshot) =
      some (snapshot.flatMap fun family => family.series.flatMap (seriesSamples family.name.toList)) := by
  refine Reads.parse (Reads.flatMap fun family held => ?_)
  obtain ⟨valid, labeled, bounds⟩ := exposable family held
  have named := named_metric valid
  have name_feed : '\n' ∉ family.name.toList := fun member => (named.solid _ member).2 rfl
  have help := reads_line (by simp [name_feed, escapeHelp_feed])
    (readLine_help named (escapeHelp family.help.toList))
  have kind_feed : '\n' ∉ family.kind.asStr.toList := by
    cases family.kind <;> decide
  have type := reads_line (by simp [name_feed, kind_feed]) (readLine_type named family.kind)
  refine (help.append type).append (Reads.flatMap fun series member => ?_)
  exact reads_series valid (labeled series member) (bounds series member)

end Renvor.Metrics
