import Mathlib.Data.List.DropRight
import Mathlib.Tactic.Common

/-! # Redaction of a line of output

A scanner finds a separator after a secret key and drops the value after it. Beside it
stands what such a line is: pairs of a key and a value, the key bare or quoted, the value
a bare run or a quoted text with escapes (`Renvor.Redact.pairs`).
-/

namespace Renvor.Redact

/-- The marker for redacted material. -/
def redacted : List Char := "[redacted]".toList

/-- The keys whose value is replaced. -/
def secretKeys : List String :=
  ["password", "passwd", "secret", "token", "api_key", "apikey", "private_key", "authorization"]

def isKeyChar (character : Char) : Bool :=
  character.isAlphanum || character = '_' || character = '-' || character = '.'

def isAsciiWhitespace (character : Char) : Bool := "\t\n\x0C\r ".toList.contains character

/-- The characters that end a value. -/
def endsValue (character : Char) : Bool :=
  isAsciiWhitespace character || ",\x7d\"\'`".toList.contains character

def isQuote (character : Char) : Bool := character = '"' || character = '\''

def isSeparator (character : Char) : Bool := character = '=' || character = ':'

/-- A key that is one of the secret ones, in any case and with dashes before it. -/
def isSecret (key : List Char) : Bool :=
  secretKeys.any fun secret =>
    secret.toList.map Char.toLower = (key.dropWhile (· = '-')).map Char.toLower

/-- The key at the end of what was scanned, which stands in reverse. -/
def keyBefore (scanned : List Char) : List Char := (scanned.takeWhile isKeyChar).reverse

/-- A bare key that is secret. -/
def bareKey (scanned : List Char) : Bool := isSecret (keyBefore scanned)

/-- The text up to the first separator after a key, and the text after it. -/
def findPair (key : List Char → Bool) (scanned : List Char) :
    List Char → Option (List Char × List Char)
  | [] => none
  | character :: rest =>
      if isSeparator character && key scanned then some ((character :: scanned).reverse, rest)
      else findPair key (character :: scanned) rest

theorem findPair_length {key : List Char → Bool} {scanned text front rest : List Char}
    (found : findPair key scanned text = some (front, rest)) : rest.length < text.length := by
  induction text generalizing scanned with
  | nil => cases found
  | cons character text ih =>
      unfold findPair at found
      split at found
      next =>
        cases found
        exact Nat.lt_succ_self _
      next =>
        have shorter := ih found
        rw [List.length_cons]
        omega

/-- The spaces between a separator and a value. -/
def spaces (text : List Char) : List Char := text.takeWhile (· = ' ')

def afterSpaces (text : List Char) : List Char := text.dropWhile (· = ' ')

/-- What is left after a value: after the quote that closes it, where it begins with
one, and from what ends it otherwise. -/
def afterValue (text : List Char) : List Char :=
  match text.head?.filter isQuote with
  | some quote => ((text.drop 1).dropWhile (· ≠ quote)).drop 1
  | none => text.dropWhile fun character => !endsValue character

theorem length_afterValue (text : List Char) : (afterValue text).length ≤ text.length := by
  unfold afterValue
  split
  next quote _ =>
    have shorter := (List.dropWhile_suffix (l := text.drop 1) (· ≠ quote)).length_le
    rw [List.length_drop] at shorter ⊢
    omega
  next => exact (List.dropWhile_suffix _).length_le

theorem length_afterSpaces (text : List Char) : (afterSpaces text).length ≤ text.length :=
  (List.dropWhile_suffix _).length_le

/-- Redacts credential-shaped material in a line of output. -/
def line (input : List Char) : List Char :=
  match _found : findPair bareKey [] input with
  | none => input
  | some (front, rest) =>
      front ++ spaces rest ++ redacted ++ line (afterValue (afterSpaces rest))
termination_by input.length
decreasing_by
  have found := findPair_length _found
  have value := length_afterValue (afterSpaces rest)
  have blank := length_afterSpaces rest
  omega

/-! ## What a line is -/

/-- A secret key, bare or in quotes. -/
def anyKey : List Char → Bool
  | '"' :: scanned => match scanned.dropWhile isKeyChar with
      | '"' :: _ => bareKey scanned
      | _ => false
  | scanned => bareKey scanned

/-- How a value is written: bare, in quotes, or in quotes with such a quote escaped. -/
inductive Form
  | bare | quoted | escaped
  deriving DecidableEq

/-- A value, how it is written, and what is left. -/
structure Value where
  text : List Char
  form : Form
  rest : List Char

/-- Reads up to a quote that is not escaped, or to the end. -/
def readQuoted (quote : Char) : List Char → Value
  | [] => ⟨[], .quoted, []⟩
  | '\\' :: character :: more =>
      let value := readQuoted quote more
      ⟨'\\' :: character :: value.text, if character = quote then .escaped else value.form,
        value.rest⟩
  | character :: more =>
      if character = quote then ⟨[character], .quoted, more⟩
      else
        let value := readQuoted quote more
        ⟨character :: value.text, value.form, value.rest⟩

def readValue (text : List Char) : Value :=
  match text.head?.filter isQuote with
  | some quote =>
      let value := readQuoted quote (text.drop 1)
      ⟨quote :: value.text, value.form, value.rest⟩
  | none =>
      ⟨text.takeWhile fun character => !endsValue character, .bare,
        text.dropWhile fun character => !endsValue character⟩

/-- A pair in a line: the text before its value, the value, how it is written and what
comes next. -/
structure Pair where
  front : List Char
  value : List Char
  form : Form
  next : Option Char

/-- All of a pair but its value. -/
def Pair.blank (pair : Pair) : Pair := { pair with value := [] }

theorem readQuoted_append (quote : Char) (text : List Char) :
    (readQuoted quote text).text ++ (readQuoted quote text).rest = text := by
  fun_induction readQuoted quote text with
  | case1 => rfl
  | case2 character more value ih => exact congrArg (fun text => '\\' :: character :: text) ih
  | case3 more => rfl
  | case4 character more _ _ value ih => exact congrArg (character :: ·) ih

/-- A text that begins with a quote. -/
theorem head_quote {text : List Char} {quote : Char}
    (begins : text.head?.filter isQuote = some quote) :
    text = quote :: text.drop 1 ∧ isQuote quote = true := by
  obtain ⟨head, marks⟩ := Option.filter_eq_some_iff.mp begins
  cases text with
  | nil => cases head
  | cons first rest =>
      cases head
      exact ⟨rfl, marks⟩

theorem readValue_append (text : List Char) :
    (readValue text).text ++ (readValue text).rest = text := by
  unfold readValue
  split
  next quote begins =>
    obtain ⟨whole, _⟩ := head_quote begins
    exact (congrArg (quote :: ·) (readQuoted_append quote (text.drop 1))).trans whole.symm
  next => exact List.takeWhile_append_dropWhile

theorem length_readValue (text : List Char) : (readValue text).rest.length ≤ text.length := by
  have parts := congrArg List.length (readValue_append text)
  rw [List.length_append] at parts
  omega

/-- The pairs of a line, and the text after them. -/
def pairs (input : List Char) : List Pair × List Char :=
  match _found : findPair anyKey [] input with
  | none => ([], input)
  | some (front, rest) =>
      let value := readValue (afterSpaces rest)
      let more := pairs value.rest
      (⟨front ++ spaces rest, value.text, value.form, value.rest.head?⟩ :: more.1, more.2)
termination_by input.length
decreasing_by
  have found := findPair_length _found
  have value := length_readValue (afterSpaces rest)
  have blank := length_afterSpaces rest
  omega

/-- Lines that differ only in values. -/
def Same (left right : List Char) : Prop :=
  (pairs left).1.map Pair.front = (pairs right).1.map Pair.front ∧
    (pairs left).2 = (pairs right).2

/-- Lines that differ only in values, each written in the same form. -/
def Alike (left right : List Char) : Prop :=
  (pairs left).1.map Pair.blank = (pairs right).1.map Pair.blank ∧
    (pairs left).2 = (pairs right).2

instance (left right : List Char) : Decidable (Same left right) :=
  inferInstanceAs (Decidable (_ ∧ _))

/-- **A pair that is redacted as a whole.** Its key is bare, no quote in its value is
escaped, and what follows ends a bare value too. -/
structure Pair.Plain (pair : Pair) : Prop where
  key : (findPair bareKey [] pair.front).isSome = true
  form : pair.form ≠ .escaped
  next : ∀ character ∈ pair.next, endsValue character = true

/-- A line of such pairs. -/
def Plain (input : List Char) : Prop := ∀ pair ∈ (pairs input).1, pair.Plain

end Renvor.Redact
