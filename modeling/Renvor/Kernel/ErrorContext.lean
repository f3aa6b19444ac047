import Mathlib.Tactic.Common
import Mathlib.Tactic.NormNum
import Mathlib.Tactic.Ring

/-! # Configuration errors

What an error says of a configuration is built from shapes and bounds, and from a
decoder's report without the value that it quotes (`Renvor.ErrorContext.Constraint.fromDecoder`). Every
text of it is bounded, cut between characters (`Renvor.ErrorContext.boundedTo`).
-/

namespace Renvor.ErrorContext

/-! ## Text in bytes -/

def byteLength (text : List Char) : Nat := (text.map Char.utf8Size).sum

/-- A text, of no more bytes than a length can count. -/
structure Text where
  characters : List Char
  counted : byteLength characters < 2 ^ 64

/-- A text that is made; one longer than a length can count panics. -/
def Text.held (characters : List Char) : Option Text :=
  if counted : byteLength characters < 2 ^ 64 then some ⟨characters, counted⟩ else none

def isCharBoundary : List Char → Nat → Bool
  | _, 0 => true
  | [], _ + 1 => false
  | character :: rest, index + 1 =>
      character.utf8Size ≤ index + 1 && isCharBoundary rest (index + 1 - character.utf8Size)

/-- The text up to an index; an index inside a character panics. -/
def sliceTo : List Char → Nat → Option (List Char)
  | _, 0 => some []
  | [], _ + 1 => none
  | character :: rest, index + 1 =>
      if character.utf8Size ≤ index + 1 then
        (sliceTo rest (index + 1 - character.utf8Size)).map (character :: ·)
      else none

/-- The last boundary at or before an index. -/
def boundaryBefore (text : List Char) : Nat → Nat
  | 0 => 0
  | cut + 1 => if isCharBoundary text (cut + 1) then cut + 1 else boundaryBefore text cut

/-- What is said of a text that is cut. -/
def notice (bytes : Nat) : List Char :=
  "… (truncated; ".toList ++ Nat.toDigits 10 bytes ++ " bytes in full)".toList

/-- A text within a ceiling, or as much of it as leaves room for the notice. -/
def boundedTo (raw : List Char) (ceiling : Nat) : Option (List Char) :=
  if byteLength raw ≤ ceiling then some raw
  else
    let notice := notice (byteLength raw)
    let room := ceiling - byteLength notice
    let cut := boundaryBefore raw (min room (byteLength raw))
    (sliceTo raw cut).map (· ++ notice)

def maxIdentifierBytes : Nat := 128

def maxConstraintBytes : Nat := 512

def boundedIdentifier (raw : List Char) : Option (List Char) := boundedTo raw maxIdentifierBytes

def boundedConstraint (raw : List Char) : Option (List Char) := boundedTo raw maxConstraintBytes

/-! ## Constraints -/

/-- What was wrong with a value, without the value. -/
inductive Constraint
  | missing
  | wrongShape (found expected : Text)
  | outOfRange (minimum maximum : BitVec 128)
  | tooShort (minimum : UInt64)
  | tooLong (maximum : UInt64)
  | tooLarge (maximumBytes : UInt64)
  | tooDeep (maximumDepth : UInt64)
  | rule (text : Text)
  | decoder (report : Text)

namespace Constraint

/-- How a decoder's message begins that names keys only. -/
def keyOnlyPrefixes : List String := ["missing field", "unknown field", "duplicate key"]

def typeMarks : List Char := " _-:<>,()".toList

/-- A fragment that looks like a type's name. -/
def isTypeDescription (fragment : List Char) : Bool :=
  !fragment.isEmpty && byteLength fragment ≤ 64 &&
    fragment.all fun character => character.isAlphanum || typeMarks.contains character

end Constraint

/-- The text before and after the last occurrence of a separator. -/
def rsplitOnce (separator : List Char) : List Char → Option (List Char × List Char)
  | [] => if separator.isEmpty then some ([], []) else none
  | character :: rest => match rsplitOnce separator rest with
      | some (front, back) => some (character :: front, back)
      | none =>
          if separator.isPrefixOf (character :: rest) then
            some ([], (character :: rest).drop separator.length)
          else none

namespace Constraint

/-- What stands before the declared type in a decoder's message. -/
def separator : List Char := ", expected ".toList

def declaredType : Text := ⟨"the declared type".toList, by decide⟩

/-- Builds a constraint from a decoder's message without the value it quotes. -/
def fromDecoder (message : List Char) (found : Text) : Option Constraint :=
  if keyOnlyPrefixes.any fun front => front.toList.isPrefixOf message then do
    return .decoder (← Text.held (← boundedConstraint message))
  else
    match (rsplitOnce separator message).filter fun parts => isTypeDescription parts.2 with
    | none => some (.wrongShape found declaredType)
    | some (_, expected) =>
        (Text.held ("found ".toList ++ found.characters ++ ", expected ".toList ++ expected)).map
          .decoder

def signed (value : Int) : List Char :=
  if value < 0 then '-' :: Nat.toDigits 10 value.natAbs else Nat.toDigits 10 value.natAbs

/-- How a constraint reads inside a message. -/
def describe : Constraint → List Char
  | missing => "no layer supplied a value and there is no default".toList
  | wrongShape found expected =>
      "found ".toList ++ found.characters ++ ", expected ".toList ++ expected.characters
  | outOfRange minimum maximum =>
      "must be between ".toList ++ signed minimum.toInt ++ " and ".toList ++
        signed maximum.toInt ++ " inclusive".toList
  | tooShort minimum =>
      "must be at least ".toList ++ Nat.toDigits 10 minimum.toNat ++ " characters".toList
  | tooLong maximum =>
      "must be at most ".toList ++ Nat.toDigits 10 maximum.toNat ++ " characters".toList
  | tooLarge maximumBytes =>
      "exceeds the ".toList ++ Nat.toDigits 10 maximumBytes.toNat ++ " byte ceiling".toList
  | tooDeep maximumDepth =>
      "nests deeper than the ".toList ++ Nat.toDigits 10 maximumDepth.toNat ++
        ("-level ceiling; decoding and then dropping a structure that deep recurses far " ++
          "enough to overflow the stack, which no Rust guard can catch").toList
  | rule text => text.characters
  | decoder report => report.characters

end Constraint

/-- The errors of a configuration. -/
inductive ConfigurationError
  | configuration (key constraint layer : List Char) (expectedType : Text)
  | conflict (key firstLayer : List Char) (firstShape : Text) (secondLayer : List Char)
      (secondShape : Text)

/-- Builds an error of a value; a cut inside a character would panic. -/
def configuration (key layer expectedType : Text) (constraint : Constraint) :
    Option ConfigurationError := do
  let key ← boundedIdentifier key.characters
  let constraint ← boundedConstraint constraint.describe
  let layer ← boundedIdentifier layer.characters
  return .configuration key constraint layer expectedType

/-- Builds an error of two layers that do not agree. -/
def conflict (key firstLayer firstShape secondLayer secondShape : Text) :
    Option ConfigurationError := do
  let key ← boundedIdentifier key.characters
  let firstLayer ← boundedIdentifier firstLayer.characters
  let secondLayer ← boundedIdentifier secondLayer.characters
  return .conflict key firstLayer firstShape secondLayer secondShape

end Renvor.ErrorContext
