import Mathlib.Data.List.Basic
import Mathlib.Tactic.Common
import Renvor.Kernel.Text

/-! # The tokens of a command as Windows quotes it

Cargo prints the commands it launches with every argument escaped. Reading the arguments
back undoes the escaping where white space means the same to both
(`Renvor.WindowsTokens.windows_arguments`).
-/

namespace Renvor.WindowsTokens

/-- What has been read of a command: the tokens so far, and the one that is being read. -/
structure Splitter where
  tokens : List (List Char)
  current : List Char
  inToken : Bool
  quoted : Bool

namespace Splitter

/-- Pushes onto the token that is read. -/
def push (reader : Splitter) (characters : List Char) : Splitter :=
  { reader with current := reader.current ++ characters, inToken := true }

def toggle (reader : Splitter) : Splitter :=
  { reader with quoted := !reader.quoted, inToken := true }

/-- Ends the token that is read, if there is one. -/
def separate (reader : Splitter) : Splitter :=
  if reader.inToken then
    { reader with tokens := reader.tokens ++ [reader.current], current := [], inToken := false }
  else reader

def read (reader : Splitter) : List Char → Splitter
  | [] => reader
  | character :: rest =>
      if character = '\\' then
        let backslashes := 1 + (rest.takeWhile (· = '\\')).length
        match after : rest.dropWhile (· = '\\') with
        | [] => reader.push (List.replicate backslashes '\\')
        | next :: later =>
            if next = '"' then
              if backslashes % 2 = 1 then
                (reader.push (List.replicate (backslashes / 2) '\\' ++ ['"'])).read later
              else (reader.push (List.replicate (backslashes / 2) '\\')).toggle.read later
            else (reader.push (List.replicate backslashes '\\')).read (next :: later)
      else if character = '"' then reader.toggle.read rest
      else if isWhitespace character && !reader.quoted then reader.separate.read rest
      else (reader.push [character]).read rest
termination_by text => text.length
decreasing_by
  all_goals
    have shorter := (List.dropWhile_suffix (l := rest) (· = '\\')).length_le
    simp_all
    try omega

/-- The tokens, unless a quote is left open. -/
def finish (reader : Splitter) : Option (List (List Char)) :=
  if reader.quoted then none else some reader.separate.tokens

end Splitter

def windowsTokens (command : List Char) : Option (List (List Char)) :=
  (Splitter.read ⟨[], [], false, false⟩ command).finish

/-- The argument is quoted: it is empty, or one of four characters is in it. -/
def needsEscape (argument : List Char) : Bool :=
  argument.isEmpty || argument.any fun character =>
    character = '"' || character = '\t' || character = '\n' || character = ' '

/-- What stands between the quotes, after some backslashes that are not yet written. -/
def escapeBody (slashes : Nat) : List Char → List Char
  | [] => List.replicate (slashes * 2) '\\'
  | character :: rest =>
      if character = '\\' then escapeBody (slashes + 1) rest
      else if character = '"' then
        List.replicate (slashes * 2 + 1) '\\' ++ '"' :: escapeBody 0 rest
      else List.replicate slashes '\\' ++ character :: escapeBody 0 rest

/-- An argument as Cargo writes it on Windows. -/
def escape (argument : List Char) : List Char :=
  if needsEscape argument then '"' :: escapeBody 0 argument ++ ['"'] else argument

/-- A command as Cargo writes it on Windows. -/
def joined (arguments : List (List Char)) : List Char :=
  List.intercalate [' '] (arguments.map escape)

/-- How many double quotes open or close: an even number of backslashes stands right
before each. -/
def quoteMarks (slashes : Nat) : List Char → Nat
  | [] => 0
  | character :: rest =>
      if character = '\\' then quoteMarks (slashes + 1) rest
      else if character = '"' then (if slashes % 2 = 0 then 1 else 0) + quoteMarks 0 rest
      else quoteMarks 0 rest

/-- A quote is left open. -/
def LeftOpen (command : List Char) : Prop := quoteMarks 0 command % 2 = 1

namespace Splitter

variable (reader : Splitter) {character : Char} {rest : List Char}

@[simp] theorem read_nil : reader.read [] = reader := by rw [read]

theorem read_quote : reader.read ('"' :: rest) = reader.toggle.read rest := by
  rw [read, if_neg (by decide), if_pos rfl]

theorem read_blank (blank : isWhitespace character = true) (unquoted : reader.quoted = false) :
    reader.read (character :: rest) = reader.separate.read rest := by
  have slash : character ≠ '\\' := by
    rintro rfl
    exact absurd blank (by decide)
  have quote : character ≠ '"' := by
    rintro rfl
    exact absurd blank (by decide)
  rw [read, if_neg slash, if_neg quote, if_pos (by rw [blank, unquoted]; rfl)]

theorem read_other (slash : character ≠ '\\') (quote : character ≠ '"')
    (solid : isWhitespace character = false ∨ reader.quoted = true) :
    reader.read (character :: rest) = (reader.push [character]).read rest := by
  have solid : ¬(isWhitespace character && !reader.quoted) = true := by
    cases solid with
    | inl solid => rw [solid]; exact Bool.false_ne_true
    | inr quoted => rw [quoted, Bool.not_true, Bool.and_false]; exact Bool.false_ne_true
  rw [read, if_neg slash, if_neg quote, if_neg solid]

/-- The backslashes in front of something else. -/
theorem run_length (count : Nat) (ends : ∀ next ∈ rest.head?, next ≠ '\\') :
    (List.replicate count '\\' ++ rest).takeWhile (· = '\\') = List.replicate count '\\' ∧
      (List.replicate count '\\' ++ rest).dropWhile (· = '\\') = rest := by
  induction count with
  | zero =>
      cases rest with
      | nil => exact ⟨rfl, rfl⟩
      | cons next later =>
          have kept : ¬decide (next = '\\') = true := by simp [ends next rfl]
          exact ⟨List.takeWhile_cons_of_neg kept, List.dropWhile_cons_of_neg kept⟩
  | succ count ih =>
      rw [List.replicate_succ, List.cons_append, List.takeWhile_cons_of_pos (by simp),
        List.dropWhile_cons_of_pos (by simp), ih.1]
      exact ⟨rfl, ih.2⟩

/-- Backslashes before a quote are halved, and an odd one makes the quote a character. -/
theorem read_run_quote (count : Nat) :
    reader.read (List.replicate count '\\' ++ '"' :: rest) =
      if count % 2 = 1 then
        (reader.push (List.replicate (count / 2) '\\' ++ ['"'])).read rest
      else (reader.push (List.replicate (count / 2) '\\')).toggle.read rest := by
  cases count with
  | zero =>
      rw [List.replicate_zero, List.nil_append, read_quote, if_neg (by decide)]
      simp [push, toggle]
  | succ count =>
      have ends : ∀ next ∈ ('"' :: rest).head?, next ≠ '\\' := by simp
      obtain ⟨run, after⟩ := run_length count ends
      rw [List.replicate_succ, List.cons_append, read, if_pos rfl, run, List.length_replicate,
        Nat.add_comm 1 count]
      split
      next none => exact nomatch after.symm.trans none
      next next later found =>
        obtain ⟨rfl, rfl⟩ := List.cons.inj (after.symm.trans found)
        rw [if_pos rfl]

/-- Backslashes before anything else are characters. -/
theorem read_run_other (count : Nat) (slash : character ≠ '\\') (quote : character ≠ '"') :
    reader.read (List.replicate (count + 1) '\\' ++ character :: rest) =
      (reader.push (List.replicate (count + 1) '\\')).read (character :: rest) := by
  have ends : ∀ next ∈ (character :: rest).head?, next ≠ '\\' := by simp [slash]
  obtain ⟨run, after⟩ := run_length count ends
  rw [List.replicate_succ, List.cons_append, read, if_pos rfl, run, List.length_replicate,
    Nat.add_comm 1 count]
  split
  next none => exact nomatch after.symm.trans none
  next next later found =>
    obtain ⟨rfl, rfl⟩ := List.cons.inj (after.symm.trans found)
    rw [if_neg quote, List.replicate_succ]

theorem read_run_end (count : Nat) :
    reader.read (List.replicate (count + 1) '\\') =
      reader.push (List.replicate (count + 1) '\\') := by
  have ends : ∀ next ∈ ([] : List Char).head?, next ≠ '\\' := by simp
  obtain ⟨run, after⟩ := run_length count ends
  rw [List.append_nil] at run after
  rw [List.replicate_succ, read, if_pos rfl, run, List.length_replicate, Nat.add_comm 1 count]
  split
  next => rfl
  next next later found => exact nomatch after.symm.trans found

@[simp] theorem push_push (first second : List Char) :
    (reader.push first).push second = reader.push (first ++ second) := by
  simp [push]

@[simp] theorem push_quoted (characters : List Char) :
    (reader.push characters).quoted = reader.quoted := rfl

theorem separate_quoted : reader.separate.quoted = reader.quoted := by
  unfold separate
  split <;> rfl

theorem read_run_solid (count : Nat) (slash : character ≠ '\\') (quote : character ≠ '"')
    (solid : isWhitespace character = false ∨ reader.quoted = true) :
    reader.read (List.replicate count '\\' ++ character :: rest) =
      (reader.push (List.replicate count '\\' ++ [character])).read rest := by
  cases count with
  | zero => exact reader.read_other slash quote solid
  | succ count =>
      rw [reader.read_run_other count slash quote,
        (reader.push _).read_other slash quote solid, push_push]

/-- **What stands between quotes is read back.** -/
theorem read_body {argument after : List Char} (slashes : Nat) (quoted : reader.quoted = true) :
    reader.read (escapeBody slashes argument ++ '"' :: after) =
      ((reader.push (List.replicate slashes '\\' ++ argument)).toggle).read after := by
  induction argument generalizing reader slashes with
  | nil =>
      rw [escapeBody, read_run_quote, if_neg (by omega), Nat.mul_div_cancel _ (by decide),
        List.append_nil]
  | cons character rest ih =>
      rw [escapeBody]
      by_cases slash : character = '\\'
      · rw [if_pos slash, ih reader (slashes + 1) quoted, List.replicate_succ', slash]
        simp
      by_cases quote : character = '"'
      · have half : (slashes * 2 + 1) / 2 = slashes := by omega
        rw [if_neg slash, if_pos quote, List.append_assoc, List.cons_append, read_run_quote,
          if_pos (by omega), half, ih (reader.push _) 0 quoted, push_push, quote]
        simp
      · rw [if_neg slash, if_neg quote, List.append_assoc, List.cons_append,
          reader.read_run_solid slashes slash quote (.inr quoted),
          ih (reader.push _) 0 quoted, push_push]
        simp

/-- An argument that is not quoted, its white space between tokens. -/
def plain (reader : Splitter) : List Char → Splitter
  | [] => reader
  | character :: rest =>
      if isWhitespace character then reader.separate.plain rest
      else (reader.push [character]).plain rest

theorem plain_solid {argument : List Char} (filled : argument ≠ [])
    (solid : ∀ character ∈ argument, isWhitespace character = false) :
    reader.plain argument = reader.push argument := by
  induction argument generalizing reader with
  | nil => exact (filled rfl).elim
  | cons character rest ih =>
      rw [plain, if_neg (by simp [solid character List.mem_cons_self])]
      cases rest with
      | nil => rfl
      | cons next later =>
          rw [ih _ (List.cons_ne_nil next later)
            fun character member => solid character (List.mem_cons_of_mem _ member), push_push]
          rfl

theorem plain_quoted (argument : List Char) : (reader.plain argument).quoted = reader.quoted := by
  induction argument generalizing reader with
  | nil => rfl
  | cons character rest ih =>
      rw [plain]
      split
      · rw [ih, separate_quoted]
      · rw [ih, push_quoted]

/-- **An argument that is not quoted is read as it stands.** -/
theorem read_plain {argument after : List Char} (count : Nat) (unquoted : reader.quoted = false)
    (quotes : '"' ∉ argument) (ends : ∀ next ∈ after.head?, next = ' ') :
    reader.read (List.replicate count '\\' ++ (argument ++ after)) =
      ((reader.plain (List.replicate count '\\')).plain argument).read after := by
  have run (reader : Splitter) (count : Nat) :
      reader.plain (List.replicate (count + 1) '\\') =
        reader.push (List.replicate (count + 1) '\\') :=
    reader.plain_solid (List.cons_ne_nil _ _) fun character member => by
      rw [List.eq_of_mem_replicate member]
      decide
  induction argument generalizing reader count with
  | nil =>
      cases count with
      | zero => rfl
      | succ count =>
          rw [run, List.nil_append]
          cases after with
          | nil => rw [List.append_nil, read_run_end, read_nil]; rfl
          | cons next later =>
              cases ends next rfl
              exact reader.read_run_other count (by decide) (by decide)
  | cons character rest ih =>
      have quotes' : '"' ∉ rest := fun member => quotes (List.mem_cons_of_mem _ member)
      have quote : character ≠ '"' := fun same => quotes (same ▸ List.mem_cons_self)
      by_cases slash : character = '\\'
      · have more : List.replicate count '\\' ++ (character :: rest ++ after) =
            List.replicate (count + 1) '\\' ++ (rest ++ after) := by
          rw [List.replicate_succ', slash]
          simp
        rw [more, ih reader (count + 1) unquoted quotes', run, plain,
          if_neg (by rw [slash]; decide), slash, List.replicate_succ', ← push_push]
        cases count with
        | zero => rw [List.replicate_zero, push_push]; rfl
        | succ count => rw [run]
      cases blank : isWhitespace character with
      | false =>
          rw [List.cons_append, reader.read_run_solid count slash quote (.inl blank), plain,
            if_neg (by simp [blank])]
          have next := ih (reader.push (List.replicate count '\\' ++ [character])) 0 unquoted quotes'
          rw [List.replicate_zero, List.nil_append, plain] at next
          cases count with
          | zero => exact next
          | succ count =>
              rw [run, push_push]
              exact next
      | true =>
          have separated (reader : Splitter) (unquoted : reader.quoted = false) :
              reader.read (character :: (rest ++ after)) =
                (reader.separate.plain rest).read after := by
            rw [reader.read_blank blank unquoted]
            exact ih reader.separate 0 (reader.separate_quoted.trans unquoted) quotes'
          rw [plain, if_pos blank]
          cases count with
          | zero => exact separated reader unquoted
          | succ count =>
              rw [run, List.cons_append, reader.read_run_other count slash quote]
              exact separated _ unquoted

/-- All that has been read, the ends of the tokens left out. -/
def text (reader : Splitter) : List Char := reader.tokens.flatten ++ reader.current

@[simp] theorem push_text (characters : List Char) :
    (reader.push characters).text = reader.text ++ characters := by
  simp [push, text]

@[simp] theorem separate_text : reader.separate.text = reader.text := by
  unfold separate text
  split
  · simp
  · rfl

theorem plain_text (argument : List Char) :
    (reader.plain argument).text = reader.text ++ argument.filter (!isWhitespace ·) := by
  induction argument generalizing reader with
  | nil => exact (List.append_nil reader.text).symm
  | cons character rest ih =>
      rw [plain]
      split
      next blank => rw [ih, separate_text, List.filter_cons_of_neg (by simp [blank])]
      next solid =>
        rw [ih, push_text, List.filter_cons_of_pos (by simp [solid]), List.append_assoc]
        rfl

/-- What an argument adds to what has been read. -/
def take (reader : Splitter) (argument : List Char) : Splitter :=
  if needsEscape argument then reader.push argument else reader.plain argument

theorem take_quoted (argument : List Char) : (reader.take argument).quoted = reader.quoted := by
  unfold take
  split
  · rfl
  · exact reader.plain_quoted argument

/-- **An escaped argument is read.** -/
theorem read_escape (argument : List Char) {after : List Char} (unquoted : reader.quoted = false)
    (ends : ∀ next ∈ after.head?, next = ' ') :
    reader.read (escape argument ++ after) = (reader.take argument).read after := by
  unfold escape take
  split
  next quoted =>
    rw [List.append_assoc, List.cons_append, List.singleton_append, read_quote,
      reader.toggle.read_body 0 (by simp [toggle, unquoted])]
    simp [toggle, push]
  next bare =>
    have quotes : '"' ∉ argument := fun member => bare (by
      unfold needsEscape
      rw [Bool.or_eq_true, List.any_eq_true]
      exact .inr ⟨'"', member, by decide⟩)
    exact reader.read_plain 0 unquoted quotes ends

end Splitter

@[simp] theorem joined_nil : joined [] = [] := rfl

@[simp] theorem joined_one (argument : List Char) : joined [argument] = escape argument := by
  simp [joined]

@[simp] theorem joined_more (first second : List Char) (rest : List (List Char)) :
    joined (first :: second :: rest) = escape first ++ ' ' :: joined (second :: rest) := by
  simp [joined, List.intercalate]

/-- Quoted, or with no white space in it that only the reading knows. -/
def Safe (argument : List Char) : Prop :=
  needsEscape argument = false → ∀ character ∈ argument, isWhitespace character = false

namespace Splitter

theorem take_safe (reader : Splitter) {argument : List Char} (safe : Safe argument) :
    reader.take argument = reader.push argument := by
  unfold take
  split
  next => rfl
  next bare =>
    have bare : needsEscape argument = false := Bool.eq_false_iff.mpr bare
    have filled : argument ≠ [] := by
      rintro rfl
      exact nomatch bare
    exact reader.plain_solid filled (safe bare)

theorem head_blank (rest : List Char) : ∀ next ∈ (' ' :: rest).head?, next = ' ' := by
  intro next member
  exact (Option.some.inj member).symm

/-- **Arguments that are safe are read back.** -/
theorem read_safe (tokens : List (List Char)) {arguments : List (List Char)}
    (safe : ∀ argument ∈ arguments, Safe argument) :
    (read ⟨tokens, [], false, false⟩ (joined arguments)).finish = some (tokens ++ arguments) := by
  induction arguments generalizing tokens with
  | nil => simp [finish, separate]
  | cons first rest ih =>
      have safeFirst := safe first List.mem_cons_self
      cases rest with
      | nil =>
          have ends : ∀ next ∈ ([] : List Char).head?, next = ' ' := by simp
          have whole := read_escape ⟨tokens, [], false, false⟩ first rfl ends
          rw [List.append_nil, read_nil, take_safe _ safeFirst] at whole
          rw [joined_one, whole]
          rfl
      | cons second later =>
          rw [joined_more, read_escape _ first rfl (head_blank _), take_safe _ safeFirst,
            read_blank _ (by decide) rfl]
          have next := ih (tokens ++ [first]) fun argument member =>
            safe argument (List.mem_cons_of_mem _ member)
          rw [List.append_assoc] at next
          exact next

/-- What of an argument comes back at most. -/
def kept (argument : List Char) : List Char :=
  if needsEscape argument then argument else argument.filter (!isWhitespace ·)

theorem take_text (reader : Splitter) (argument : List Char) :
    (reader.take argument).text = reader.text ++ kept argument := by
  unfold take kept
  split
  · exact reader.push_text argument
  · exact reader.plain_text argument

theorem read_joined (reader : Splitter) (arguments : List (List Char))
    (unquoted : reader.quoted = false) :
    (reader.read (joined arguments)).text = reader.text ++ arguments.flatMap kept ∧
      (reader.read (joined arguments)).quoted = false := by
  induction arguments generalizing reader with
  | nil => simp [unquoted]
  | cons first rest ih =>
      have taken : (reader.take first).quoted = false := (reader.take_quoted first).trans unquoted
      cases rest with
      | nil =>
          have ends : ∀ next ∈ ([] : List Char).head?, next = ' ' := by simp
          have whole := reader.read_escape first unquoted ends
          rw [List.append_nil, read_nil] at whole
          rw [joined_one, whole, take_text, List.flatMap_singleton]
          exact ⟨rfl, taken⟩
      | cons second later =>
          rw [joined_more, reader.read_escape first unquoted (head_blank _),
            read_blank _ (by decide) taken, List.flatMap_cons, ← List.append_assoc,
            ← reader.take_text,
            ← (reader.take first).separate_text]
          exact ih _ ((separate_quoted _).trans taken)

theorem finish_length {reader : Splitter} {tokens : List (List Char)}
    (finished : reader.finish = some tokens) : tokens.flatten.length ≤ reader.text.length := by
  unfold finish at finished
  split at finished
  next => cases finished
  next =>
    cases finished
    rw [← reader.separate_text, text, List.length_append]
    exact Nat.le_add_right _ _

end Splitter

theorem kept_length (argument : List Char) :
    (Splitter.kept argument).length ≤ argument.length := by
  unfold Splitter.kept
  split
  · exact Nat.le_refl _
  · exact List.length_filter_le _ _

theorem safe_of_kept {argument : List Char}
    (whole : argument.length ≤ (Splitter.kept argument).length) : Safe argument := by
  intro bare character member
  rw [Splitter.kept, if_neg (by simp [bare])] at whole
  have all := List.filter_sublist.eq_of_length_le whole
  simpa using List.filter_eq_self.mp all character member

/-- Arguments of which nothing is lost are safe. -/
theorem safe_of_length {arguments : List (List Char)}
    (whole : arguments.flatten.length ≤ (arguments.flatMap Splitter.kept).length) :
    ∀ argument ∈ arguments, Safe argument := by
  have shorter (arguments : List (List Char)) :
      (arguments.flatMap Splitter.kept).length ≤ arguments.flatten.length := by
    induction arguments with
    | nil => exact Nat.le_refl _
    | cons first rest ih =>
        rw [List.flatMap_cons, List.flatten_cons, List.length_append, List.length_append]
        exact Nat.add_le_add (kept_length first) ih
  induction arguments with
  | nil => exact fun argument member => nomatch member
  | cons first rest ih =>
      rw [List.flatMap_cons, List.flatten_cons, List.length_append, List.length_append] at whole
      have short := kept_length first
      have shortRest := shorter rest
      intro argument member
      cases List.mem_cons.mp member with
      | inl same => exact same ▸ safe_of_kept (by omega)
      | inr later => exact ih (by omega) argument later

namespace Splitter

variable (reader : Splitter) {character : Char} {rest : List Char}

/-- Any other character, blank or not, leaves the quotes as they are. -/
theorem read_run_quoted (rest : List Char) (count : Nat) (slash : character ≠ '\\') (quote : character ≠ '"') :
    ∃ later : Splitter, later.quoted = reader.quoted ∧
      reader.read (List.replicate count '\\' ++ character :: rest) = later.read rest := by
  have one (reader : Splitter) : ∃ later : Splitter, later.quoted = reader.quoted ∧
      reader.read (character :: rest) = later.read rest := by
    by_cases solid : isWhitespace character = false ∨ reader.quoted = true
    · exact ⟨reader.push [character], rfl, reader.read_other slash quote solid⟩
    · rw [not_or, Bool.not_eq_false, Bool.not_eq_true] at solid
      exact ⟨reader.separate, reader.separate_quoted, reader.read_blank solid.1 solid.2⟩
  cases count with
  | zero => exact one reader
  | succ count =>
      obtain ⟨later, same, reads⟩ := one (reader.push (List.replicate (count + 1) '\\'))
      exact ⟨later, same, (reader.read_run_other count slash quote).trans reads⟩

/-- **A quote is open after an odd number of quote marks.** -/
theorem read_quoted (count : Nat) (text : List Char) :
    (reader.read (List.replicate count '\\' ++ text)).quoted =
      (reader.quoted ^^ decide (quoteMarks count text % 2 = 1)) := by
  induction text generalizing reader count with
  | nil =>
      rw [quoteMarks, List.append_nil]
      cases count with
      | zero => rw [List.replicate_zero, read_nil]; simp
      | succ count => rw [read_run_end, push_quoted]; simp
  | cons character rest ih =>
      rw [quoteMarks]
      by_cases slash : character = '\\'
      · rw [if_pos slash, ← ih reader (count + 1), List.replicate_succ', slash,
          List.append_assoc, List.singleton_append]
      by_cases quote : character = '"'
      · rw [if_neg slash, if_pos quote, quote, read_run_quote]
        by_cases odd : count % 2 = 1
        · have next := ih (reader.push (List.replicate (count / 2) '\\' ++ ['"'])) 0
          rw [List.replicate_zero, List.nil_append, push_quoted] at next
          rw [if_pos odd, if_neg (by omega), Nat.zero_add, next]
        · have next := ih (reader.push (List.replicate (count / 2) '\\')).toggle 0
          rw [List.replicate_zero, List.nil_append] at next
          have flipped : decide ((1 + quoteMarks 0 rest) % 2 = 1) =
              !decide (quoteMarks 0 rest % 2 = 1) := by
            rw [← decide_not, decide_eq_decide]
            omega
          rw [if_neg odd, if_pos (by omega), next, flipped, Bool.xor_not, ← Bool.not_xor]
          rfl
      · obtain ⟨later, same, reads⟩ := reader.read_run_quoted rest count slash quote
        have next := ih later 0
        rw [List.replicate_zero, List.nil_append, same] at next
        rw [if_neg slash, if_neg quote, reads, next]

end Splitter

/-- **Reading the tokens of a Windows command.** Arguments escaped and joined come back
exactly when each is quoted or has no white space in it, and a text is refused exactly
when a quote is left open in it. -/
theorem windows_arguments (arguments : List (List Char)) (command : List Char) :
    (windowsTokens (joined arguments) = some arguments ↔ ∀ argument ∈ arguments, Safe argument) ∧
    (windowsTokens command = none ↔ LeftOpen command) := by
  refine ⟨⟨fun same => ?_, fun safe => Splitter.read_safe [] safe⟩, ?_⟩
  · have text := (Splitter.read_joined ⟨[], [], false, false⟩ arguments rfl).1
    have short := Splitter.finish_length same
    rw [text] at short
    exact safe_of_length short
  · have quoted := Splitter.read_quoted ⟨[], [], false, false⟩ 0 command
    rw [List.replicate_zero, List.nil_append, Bool.false_xor] at quoted
    unfold windowsTokens Splitter.finish LeftOpen
    rw [quoted]
    by_cases odd : quoteMarks 0 command % 2 = 1
    · simp [odd]
    · simp [odd]

/-- A no-break space stands in no quotes and ends a token. -/
theorem no_break_space_splits :
    windowsTokens (joined [['a', '\u00a0', 'b']]) = some [['a'], ['b']] ∧
      windowsTokens (joined [['a', '\u00a0', 'b']]) ≠ some [['a', '\u00a0', 'b']] := by
  decide +kernel

end Renvor.WindowsTokens
