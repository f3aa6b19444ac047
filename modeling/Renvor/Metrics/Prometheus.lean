import Renvor.Foundation.Binary64Digits
import Renvor.Foundation.Digits
import Renvor.Kernel.Text
import Renvor.Metrics.Registry

/-! # Metrics as Prometheus text

Every series is a line, a histogram's series a line for each bucket and two more. Label
values and help texts are escaped, and doubles are written with the fewest digits that
are read back.
-/

namespace Renvor.Metrics

open Foundation

/-- A double, the two infinities and what is not a number among them. -/
inductive Double
  | finite (value : Binary64)
  | infinite (negative : Bool)
  | nan
  deriving DecidableEq

namespace Double

/-- A finite double in units, signed. -/
def signed (value : Binary64) : Int := if value.negative then -(value.units : Int) else value.units

/-- Neither an infinity nor what is not a number. -/
def isFinite : Double → Bool
  | finite _ => true
  | _ => false

/-- The comparison of doubles, which holds of nothing where one side is not a number. -/
def le : Double → Double → Bool
  | nan, _ | _, nan => false
  | infinite true, _ | _, infinite false => true
  | _, infinite true | infinite false, _ => false
  | finite left, finite right => signed left ≤ signed right

/-- A double in thousandths, as the cast rounds it: towards zero, negative ones to zero, and none
above the largest count. -/
def toMilli : Double → UInt64
  | finite value =>
      if value.negative then 0
      else .ofNat (min (Binary64.nearest (value.units * 1000) 1 / Binary64.one) (2 ^ 64 - 1))
  | _ => 0

end Double

/-- What the registry needs to know of doubles. -/
def floats : Floats Double where
  finite := Double.isFinite
  le := Double.le
  toMilli := Double.toMilli

/-- A count of thousandths divided by a thousand is a double, for the division rounds to one and
stays in range. -/
theorem milli_fits (milli : UInt64) :
    Binary64.fits (Binary64.nearest (Binary64.nearest (milli.toNat * Binary64.one) 1) 1000) = true := by
  have bits : Binary64.oneBits ≤ 1074 := by
    unfold Binary64.oneBits
    exact Nat.le_refl _
  have doubled := Binary64.nearest_le (milli.toNat * Binary64.one) 1
  have small := milli.toNat_lt
  have room : 14 + Binary64.oneBits < Binary64.maxSpacing := by
    unfold Binary64.maxSpacing
    omega
  refine Binary64.fits_nearest (lt_of_le_of_lt (Nat.div_le_self _ _) ?_) room
  rw [Nat.div_one] at doubled
  have power : 2 ^ (52 + (14 + Binary64.oneBits)) = 4 * (2 ^ 64 * Binary64.one) := by
    rw [Binary64.one, ← Nat.pow_add, show 4 = 2 ^ 2 from rfl, ← Nat.pow_add]
    congr 1
    omega
  have wide := Nat.mul_lt_mul_of_pos_right small Binary64.one_pos
  rw [power]
  have positive := Nat.mul_pos (Nat.two_pow_pos 64) Binary64.one_pos
  omega

/-- A count of thousandths as a double, the count rounded to a double before it is divided. -/
def fromMilli (milli : UInt64) : Double := .finite {
  negative := false
  units := Binary64.nearest (Binary64.nearest (milli.toNat * Binary64.one) 1) 1000
  representable := milli_fits milli }

/-! ## Numbers -/

/-- A whole number as it is displayed. -/
def integer (number : Int) : List Char :=
  if number < 0 then '-' :: Digits.padded 1 number.natAbs else Digits.padded 1 number.natAbs

/-- Digits that end at a place, with a point where one is needed. -/
def positional (digits place : Nat) : List Char :=
  if Binary64.places ≤ place then Digits.padded 1 (digits * 10 ^ (place - Binary64.places))
  else
    let decimals := Binary64.places - place
    let written := Digits.padded (decimals + 1) digits
    written.take (written.length - decimals) ++ '.' :: written.drop (written.length - decimals)

/-- The digits of a number with a minus before them, if it is negative. -/
def minus (negative : Bool) (digits : List Char) : List Char :=
  if negative then '-' :: digits else digits

/-- A finite double as it is displayed. -/
def display (value : Binary64) : List Char :=
  minus value.negative
    (positional (Binary64.shortest value.units).1 (Binary64.shortest value.units).2)

/-- A double as it stands in a sample: a small whole number without a point, and any other as it
is displayed. -/
def number : Double → List Char
  | .infinite negative => if negative then "-Inf".toList else "+Inf".toList
  | .nan => "NaN".toList
  | .finite value =>
      if value.units % Binary64.one = 0 ∧ value.units < 10 ^ 15 * Binary64.one then
        let whole := value.units / Binary64.one
        integer (if value.negative then -(whole : Int) else whole)
      else display value

/-! ## Lines -/

/-- A text with one character written as others. -/
def replace (character : Char) (written text : List Char) : List Char :=
  text.flatMap fun held => if held = character then written else [held]

/-- A help text on one line, its backslashes and line feeds escaped. -/
def escapeHelp (text : List Char) : List Char :=
  replace '\n' ['\\', 'n'] (replace '\\' ['\\', '\\'] text)

/-- A label's value between quotes, its backslashes, quotes and line feeds escaped. -/
def escapeLabel (text : List Char) : List Char :=
  replace '\n' ['\\', 'n'] (replace '"' ['\\', '"'] (replace '\\' ['\\', '\\'] text))

/-- The labels of a series, and one more if there is one. -/
def labels (series : List (String × String)) (extra : Option (List Char × List Char)) : List Char :=
  let pairs := (series.map fun (name, value) =>
      name.toList ++ '=' :: '"' :: escapeLabel value.toList ++ ['"']) ++
    extra.toList.map fun (name, value) => name ++ '=' :: '"' :: value ++ ['"']
  if pairs.isEmpty then [] else '{' :: List.intercalate [','] pairs ++ ['}']

/-- A text and the line feed that ends it. -/
def line (text : List Char) : List Char := text ++ ['\n']

/-- The line of a sample: its name, its labels and its value. -/
def sampleLine (name labels value : List Char) : List Char := line (name ++ labels ++ ' ' :: value)

/-- A count as it is displayed. -/
def unsigned (count : UInt64) : List Char := Digits.padded 1 count.toNat

/-- The lines of a series: one where it is scalar, and for a histogram its buckets, its sum and
its count. -/
def renderSeries (name : List Char) (series : Series Double) : List Char :=
  match series.value with
  | .scalar milli => sampleLine name (labels series.labels none) (number (fromMilli milli))
  | .histogram bounds counts sumMilli count =>
      ((bounds.zip counts).flatMap fun (bound, cumulative) =>
        sampleLine (name ++ "_bucket".toList)
          (labels series.labels (some ("le".toList, number bound))) (unsigned cumulative)) ++
      (match counts[bounds.length]? with
        | some last => sampleLine (name ++ "_bucket".toList)
            (labels series.labels (some ("le".toList, "+Inf".toList))) (unsigned last)
        | none => []) ++
      sampleLine (name ++ "_sum".toList) (labels series.labels none) (number (fromMilli sumMilli)) ++
      sampleLine (name ++ "_count".toList) (labels series.labels none) (unsigned count)

/-- The lines of a family: its help, its type and those of its series. -/
def renderFamily (family : FamilySnapshot Double) : List Char :=
  let name := family.name.toList
  line ("# HELP ".toList ++ name ++ ' ' :: escapeHelp family.help.toList) ++
    line ("# TYPE ".toList ++ name ++ ' ' :: family.kind.asStr.toList) ++
    family.series.flatMap (renderSeries name)

/-- The text of a snapshot, family by family. -/
def render (snapshot : List (FamilySnapshot Double)) : List Char := snapshot.flatMap renderFamily

end Renvor.Metrics
