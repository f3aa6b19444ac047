import Renvor.Metrics.Prometheus

/-! # The text that metrics are exposed in

Version 0.0.4 of the format is read line by line: comments, and samples of a name, labels
and a value. What is rendered reads as one sample for every series and four or more for
every histogram's (`Renvor.Metrics.parse_render`).
-/

namespace Renvor.Metrics

open Foundation

structure Sample where
  name : List Char
  labels : List (List Char × List Char)
  value : List Char

namespace Exposition

def isBlank (character : Char) : Bool := character = ' ' || character = '\t'

def skip (text : List Char) : List Char := text.dropWhile isBlank

def isLabelStart (character : Char) : Bool := character.isAlpha || character = '_'

def isLabelPart (character : Char) : Bool := character.isAlphanum || character = '_'

def isNameStart (character : Char) : Bool := isLabelStart character || character = ':'

def isNamePart (character : Char) : Bool := isLabelPart character || character = ':'

/-- A name at the head of a text, and what is after it. -/
def readName (start part : Char → Bool) : List Char → Option (List Char × List Char)
  | [] => none
  | first :: rest =>
      if start first then some (first :: rest.takeWhile part, rest.dropWhile part) else none

/-- A label's value up to the closing quote, and what is after it. -/
def readQuoted : List Char → Option (List Char × List Char)
  | '"' :: rest => some ([], rest)
  | '\\' :: '\\' :: rest => (readQuoted rest).map fun (value, after) => ('\\' :: value, after)
  | '\\' :: '"' :: rest => (readQuoted rest).map fun (value, after) => ('"' :: value, after)
  | '\\' :: 'n' :: rest => (readQuoted rest).map fun (value, after) => ('\n' :: value, after)
  | '\\' :: _ => none
  | character :: rest => (readQuoted rest).map fun (value, after) => (character :: value, after)
  | [] => none

/-- The labels after the opening brace, a comma between two and after the last or not. -/
def readLabels : Nat → List Char → Option (List (List Char × List Char) × List Char)
  | 0, _ => none
  | fuel + 1, text => match skip text with
      | '}' :: rest => some ([], rest)
      | text => do
          let (name, rest) ← readName isLabelStart isLabelPart text
          let '=' :: rest := skip rest | none
          let '"' :: rest := skip rest | none
          let (value, rest) ← readQuoted rest
          match skip rest with
          | ',' :: rest => do
              let (labels, rest) ← readLabels fuel rest
              some ((name, value) :: labels, rest)
          | '}' :: rest => some ([(name, value)], rest)
          | _ => none

def isDigits (text : List Char) : Bool := !text.isEmpty && text.all Digits.isDigit

def unsign : List Char → List Char
  | '-' :: rest | '+' :: rest => rest
  | rest => rest

/-- A decimal number, with a point and an exponent or without, or one of four words. -/
def isNumber (text : List Char) : Bool :=
  let unsigned := unsign text
  unsigned = "Inf".toList || text = "NaN".toList ||
    let mantissa := unsigned.takeWhile (· ≠ 'e')
    let exponent := unsigned.dropWhile (· ≠ 'e')
    let whole := mantissa.takeWhile (· ≠ '.')
    let fraction := mantissa.dropWhile (· ≠ '.')
    (exponent.isEmpty || isDigits (unsign (exponent.drop 1))) &&
      isDigits (whole ++ fraction.drop 1)

/-- A value and perhaps a timestamp. -/
def readValue (text : List Char) : Option (List Char) :=
  let text := skip text
  let value := text.takeWhile (!isBlank ·)
  let rest := skip (text.dropWhile (!isBlank ·))
  let timestamp := rest.takeWhile (!isBlank ·)
  if isNumber value && (timestamp.isEmpty || isDigits (unsign timestamp)) &&
      (skip (rest.dropWhile (!isBlank ·))).isEmpty then some value
  else none

/-- The labels in braces, if there are any. -/
def readBraces (text : List Char) : Option (List (List Char × List Char) × List Char) :=
  match skip text with
  | '{' :: rest => readLabels rest.length rest
  | _ => some ([], text)

def readSample (text : List Char) : Option Sample := do
  let (name, rest) ← readName isNameStart isNamePart text
  let (labels, rest) ← readBraces rest
  let value ← readValue rest
  some ⟨name, labels, value⟩

/-- A comment, of a metric's help or type or of neither. -/
def isComment (text : List Char) : Bool :=
  let word (text : List Char) : List Char × List Char :=
    ((skip text).takeWhile (!isBlank ·), (skip text).dropWhile (!isBlank ·))
  let isName (name : List Char) : Bool :=
    (readName isNameStart isNamePart name).any fun (_, rest) => rest.isEmpty
  let (token, rest) := word text
  if token = "HELP".toList then isName (word rest).1
  else if token = "TYPE".toList then
    let (name, rest) := word rest
    let (kind, rest) := word rest
    isName name && ["counter", "gauge", "histogram", "summary", "untyped"].any (kind = ·.toList) &&
      (skip rest).isEmpty
  else true

/-- What a line says: nothing, or a sample. -/
def readLine (text : List Char) : Option (Option Sample) :=
  match skip text with
  | [] => some none
  | '#' :: rest => if isComment rest then some none else none
  | text => (readSample text).map some

/-- The lines of a text, each ended by a line feed. -/
def readLines : List Char → Option (List (List Char))
  | [] => some []
  | character :: rest =>
      if character = '\n' then (readLines rest).map ([] :: ·)
      else match readLines rest with
        | some (first :: others) => some ((character :: first) :: others)
        | _ => none

end Exposition

open Exposition in
/-- The samples of a text in the format. -/
def parse (text : List Char) : Option (List Sample) := do
  let lines ← readLines text
  let read ← lines.mapM readLine
  some (read.filterMap id)

end Renvor.Metrics
