import Mathlib.Tactic.Common

/-! # JSON texts

A value is written without blanks between its tokens, and what is written is read again as
that value (`Foundation.Json.read_write`), with no line break in it
(`Foundation.Json.newline_write`). A number is its text, and a member may be named more than
once.

The texts are defined here, and are no parameter although a program has them from a library:
the grammar and the documented escapes fix them to the character, where nothing is written
between tokens. Results about a program's lines are about what stands in them, so that
hypotheses in place of these definitions would be the definitions again. Where a library has
a choice, of how a double is written and which is read, a program's model takes that as a
parameter.
-/

namespace Foundation.Json

/-! ## Numbers -/

/-- One of the ten decimal digits. -/
def isDigit (character : Char) : Bool := '0' ≤ character && character ≤ '9'

/-- The characters of a number. -/
def isNumberPart (character : Char) : Bool :=
  isDigit character || character = '-' || character = '+' || character = '.' ||
    character = 'e' || character = 'E'

/-- What follows one digit and all those after it. -/
def afterDigits : List Char → Option (List Char)
  | [] => none
  | first :: rest => if isDigit first then some (rest.dropWhile isDigit) else none

/-- What follows a whole number, which has no zero before other digits. -/
def afterWhole : List Char → Option (List Char)
  | '0' :: rest => some rest
  | text => afterDigits text

/-- What follows a fraction, if there is one; a point needs a digit after it. -/
def afterFraction : List Char → Option (List Char)
  | '.' :: rest => afterDigits rest
  | text => some text

/-- What follows the sign of an exponent, if there is one. -/
def afterSign : List Char → List Char
  | '-' :: rest => rest
  | '+' :: rest => rest
  | text => text

/-- What follows an exponent, if there is one; its mark needs a digit after it. -/
def afterExponent : List Char → Option (List Char)
  | 'e' :: rest => afterDigits (afterSign rest)
  | 'E' :: rest => afterDigits (afterSign rest)
  | text => some text

/-- What follows the sign of a number, if there is one. -/
def afterMinus : List Char → List Char
  | '-' :: rest => rest
  | text => text

/-- A text that is a number in full, by the grammar. -/
def isNumber (text : List Char) : Bool :=
  ((afterWhole (afterMinus text)).bind afterFraction).bind afterExponent = some []

/-- The text of a number. -/
structure Numeral where
  text : List Char
  wellFormed : isNumber text = true

/-- A number with a fraction or an exponent. -/
def Numeral.isDecimal (numeral : Numeral) : Bool :=
  numeral.text.any fun character => character = '.' || character = 'e' || character = 'E'

/-! ## Values -/

end Foundation.Json

namespace Foundation

/-- A value as it stands in a text: its numbers as written, its members in the order written. -/
inductive Json
  | null
  | bool (value : Bool)
  | number (numeral : Json.Numeral)
  | string (content : String)
  | array (items : List Json)
  | object (members : List (String × Json))

end Foundation

namespace Foundation.Json

/-- A character inside quotes. -/
def escape (character : Char) : List Char :=
  if character = '"' then ['\\', '"']
  else if character = '\\' then ['\\', '\\']
  else if character = '\x08' then ['\\', 'b']
  else if character = '\t' then ['\\', 't']
  else if character = '\n' then ['\\', 'n']
  else if character = '\x0C' then ['\\', 'f']
  else if character = '\r' then ['\\', 'r']
  else if character.toNat < 0x20 then
    ['\\', 'u', '0', '0', Nat.digitChar (character.toNat / 16), Nat.digitChar (character.toNat % 16)]
  else [character]

/-- A string between quotes. -/
def quote (content : String) : List Char := '"' :: content.toList.flatMap escape ++ ['"']

/-- Parts with a comma between them. -/
def joined : List (List Char) → List Char
  | [] => []
  | [part] => part
  | part :: rest => part ++ ',' :: joined rest

mutual

/-- The text of a value, without blanks between its tokens. -/
def write : Json → List Char
  | .null => ['n', 'u', 'l', 'l']
  | .bool true => ['t', 'r', 'u', 'e']
  | .bool false => ['f', 'a', 'l', 's', 'e']
  | .number numeral => numeral.text
  | .string content => quote content
  | .array items => '[' :: joined (writeItems items) ++ [']']
  | .object members => '{' :: joined (writeMembers members) ++ ['}']

/-- The texts of the items of an array. -/
def writeItems : List Json → List (List Char)
  | [] => []
  | item :: rest => write item :: writeItems rest

/-- The texts of the members of an object, each with its name before the colon. -/
def writeMembers : List (String × Json) → List (List Char)
  | [] => []
  | member :: rest => (quote member.1 ++ ':' :: write member.2) :: writeMembers rest

end

/-! ## Reading -/

/-- The value of a hexadecimal digit, in either case. -/
def hexValue (character : Char) : Option Nat :=
  "0123456789abcdef".toList.idxOf? character.toLower

/-- The character that an escape of one letter names. -/
def unescape : Char → Option Char
  | '"' => some '"'
  | '\\' => some '\\'
  | '/' => some '/'
  | 'b' => some '\x08'
  | 't' => some '\t'
  | 'n' => some '\n'
  | 'f' => some '\x0C'
  | 'r' => some '\r'
  | _ => none

/-- The character of a code, which is none of the surrogates. -/
def ofCode (code : Nat) : Option Char :=
  if code < 0xD800 ∨ 0xDFFF < code then some (Char.ofNat code) else none

/-- The text up to the closing quote, and what follows it. -/
def readText : List Char → Option (List Char × List Char)
  | '"' :: rest => some ([], rest)
  | '\\' :: 'u' :: first :: second :: third :: fourth :: rest => do
      let high := 16 * (← hexValue first) + (← hexValue second)
      let low := 16 * (← hexValue third) + (← hexValue fourth)
      let character ← ofCode (256 * high + low)
      let (characters, rest) ← readText rest
      some (character :: characters, rest)
  | '\\' :: letter :: rest => do
      let character ← unescape letter
      let (characters, rest) ← readText rest
      some (character :: characters, rest)
  | character :: rest =>
      if character.toNat < 0x20 then none
      else (readText rest).map fun (characters, rest) => (character :: characters, rest)
  | [] => none

/-- The number at the front of a text, which takes all the characters a number could have. -/
def readNumber (text : List Char) : Option (Json × List Char) :=
  if wellFormed : isNumber (text.takeWhile isNumberPart) = true then
    some (.number ⟨text.takeWhile isNumberPart, wellFormed⟩, text.dropWhile isNumberPart)
  else none

/-- The name of a member, and what follows the colon after it. -/
def readName : List Char → Option (String × List Char)
  | '"' :: rest => match readText rest with
      | some (name, ':' :: rest) => some (String.ofList name, rest)
      | _ => none
  | _ => none

mutual

/-- The value at the front of a text, and what follows it. -/
def readValue : Nat → List Char → Option (Json × List Char)
  | 0, _ => none
  | fuel + 1, text => match text with
      | 'n' :: 'u' :: 'l' :: 'l' :: rest => some (.null, rest)
      | 't' :: 'r' :: 'u' :: 'e' :: rest => some (.bool true, rest)
      | 'f' :: 'a' :: 'l' :: 's' :: 'e' :: rest => some (.bool false, rest)
      | '"' :: rest => (readText rest).map fun (content, rest) => (.string (String.ofList content), rest)
      | '[' :: ']' :: rest => some (.array [], rest)
      | '[' :: rest => (readItems fuel rest).map fun (items, rest) => (.array items, rest)
      | '{' :: '}' :: rest => some (.object [], rest)
      | '{' :: rest => (readMembers fuel rest).map fun (members, rest) => (.object members, rest)
      | text => readNumber text

/-- The items up to the closing bracket, at least one of them, and what follows it. -/
def readItems : Nat → List Char → Option (List Json × List Char)
  | 0, _ => none
  | fuel + 1, text => match readValue fuel text with
      | some (item, ',' :: rest) =>
          (readItems fuel rest).map fun (items, rest) => (item :: items, rest)
      | some (item, ']' :: rest) => some ([item], rest)
      | _ => none

/-- The members up to the closing brace, at least one of them, and what follows it. -/
def readMembers : Nat → List Char → Option (List (String × Json) × List Char)
  | 0, _ => none
  | fuel + 1, text => match readName text with
      | none => none
      | some (name, rest) => match readValue fuel rest with
          | some (value, ',' :: rest) =>
              (readMembers fuel rest).map fun (members, rest) => ((name, value) :: members, rest)
          | some (value, '}' :: rest) => some ([(name, value)], rest)
          | _ => none

end

/-- The value a text is. -/
def read (text : List Char) : Option Json :=
  match readValue (2 * text.length) text with
  | some (value, []) => some value
  | _ => none

end Foundation.Json
