import Mathlib.Data.List.Lex
import Mathlib.Data.String.Basic
import Renvor.Foundation.OrderedMap

/-! # Metrics with a bound on their series

An instrument is a family of series, one for each combination of label values up to
a cap; what is beyond the cap, or has the wrong labels, goes to one series of its
own. Values are thousandths in sixty-four bits.
-/

namespace Renvor.Metrics

open Foundation

/-- The most bytes of a label's value that are kept. -/
def maxLabelValueBytes : Nat := 64

/-- The series of one family where the application sets no ceiling. -/
def defaultMaxSeries : Nat := 1024

/-- The most labels that a metric can be registered with. -/
def maxLabels : Nat := 8

/-- The value that every label has in the series that takes what is over the ceiling. -/
def overflowValue : String := "overflow"

/-- Why a metric is not registered. -/
inductive MetricsError
  | invalidName | invalidLabelName | tooManyLabels | alreadyRegistered | invalidBuckets

/-- The kinds of metrics. -/
inductive InstrumentKind
  | counter | gauge | histogram
  deriving DecidableEq

/-- The name of a kind, as it stands in the text that is scraped. -/
def InstrumentKind.asStr : InstrumentKind → String
  | counter => "counter"
  | gauge => "gauge"
  | histogram => "histogram"

/-- What the registry asks of floating-point numbers. -/
structure Floats (Value : Type) where
  finite : Value → Bool
  le : Value → Value → Bool
  toMilli : Value → UInt64

/-- What a metric was registered as. -/
structure Shape (Value : Type) where
  kind : InstrumentKind
  help : String
  labels : List String
  buckets : List Value
  deriving DecidableEq

/-- One series' storage. -/
inductive Storage
  | scalar (cell : UInt64)
  | histogram (buckets : List UInt64) (sumMilli count : UInt64)

/-- The product of two counts, or the largest count where it would be larger. -/
def saturatingMulU64 (left right : UInt64) : UInt64 :=
  .ofNat (min (left.toNat * right.toNat) (2 ^ 64 - 1))

variable {Value : Type}

namespace Storage

/-- The storage of a series that nothing was recorded in. -/
def empty (shape : Shape Value) : Storage := match shape.kind with
  | .counter | .gauge => scalar 0
  | .histogram => histogram (List.replicate (shape.buckets.length + 1) 0) 0 0

/-- A counter's increment. -/
def increment (count : UInt64) : Storage → Storage
  | scalar cell => scalar (cell + saturatingMulU64 count 1000)
  | other => other

/-- A gauge's new value. -/
def set (milli : UInt64) : Storage → Storage
  | scalar _ => scalar milli
  | other => other

/-- A histogram's observation: the first bucket whose bound it does not exceed. -/
def observe (floats : Floats Value) (bounds : List Value) (value : Value) : Storage → Storage
  | histogram buckets sumMilli count =>
      let index := (bounds.findIdx? fun bound => floats.le value bound).getD bounds.length
      histogram (buckets.modify index (· + 1)) (sumMilli + floats.toMilli value) (count + 1)
  | other => other

end Storage

/-- The series of one metric by the values of its labels, and what it was registered as. -/
structure Family (Value : Type) where
  shape : Shape Value
  maxSeries : Nat
  series : OrderedMap (List String) Storage
  overflowed : UInt64

namespace Family

/-- The label values, where the labels are the declared ones and fit. -/
def key (family : Family Value) (labels : List (String × String)) : Option (List String) :=
  if labels.length = family.shape.labels.length &&
      (labels.zip family.shape.labels).all fun ((name, value), declared) =>
        name = declared && decide (value.utf8ByteSize ≤ maxLabelValueBytes) &&
          !(value.contains '\n' || value.contains '\x00') then
    some (labels.map Prod.snd)
  else none

/-- The values under which what is over the ceiling is recorded. -/
def overflowKey (family : Family Value) : List String :=
  List.replicate family.shape.labels.length overflowValue

/-- Whether there is a series for these values already. -/
def contains (family : Family Value) (key : List String) : Bool := (family.series.get? key).isSome

/-- The key of a label set, and whether it is folded. -/
def place (family : Family Value) (labels : List (String × String)) : List String × Bool :=
  match family.key labels with
  | some key =>
      if family.contains key then (key, false)
      else if family.series.entries.length - (family.contains family.overflowKey).toNat <
          family.maxSeries then (key, false)
      else (family.overflowKey, true)
  | none => (family.overflowKey, true)

/-- The family with a storage for a label set, and its key. -/
def storage (family : Family Value) (labels : List (String × String)) :
    Family Value × List String :=
  let (key, folded) := family.place labels
  ({ family with
    overflowed := if folded then family.overflowed + 1 else family.overflowed
    series := if family.contains key then family.series
      else family.series.insert key (.empty family.shape) }, key)

/-- Changes the storage of a label set. -/
def update (family : Family Value) (labels : List (String × String)) (change : Storage → Storage) :
    Family Value :=
  let (family, key) := family.storage labels
  match family.series.get? key with
  | some storage => { family with series := family.series.insert key (change storage) }
  | none => family

end Family

/-! ## Readings -/

/-- A series' value, sums and scalars in thousandths. -/
inductive SeriesValue (Value : Type)
  | scalar (milli : UInt64)
  | histogram (bounds : List Value) (cumulativeCounts : List UInt64) (sumMilli count : UInt64)

/-- One series of a snapshot: its labels, and what it reads. -/
structure Series (Value : Type) where
  labels : List (String × String)
  value : SeriesValue Value

/-- One metric of a snapshot, with all of its series. -/
structure FamilySnapshot (Value : Type) where
  name : String
  help : String
  kind : InstrumentKind
  series : List (Series Value)
  overflowed : UInt64

/-- Each count with those before it. -/
def cumulate (cumulative : UInt64) : List UInt64 → List UInt64
  | [] => []
  | count :: rest => (cumulative + count) :: cumulate (cumulative + count) rest

/-- What a storage reads: a cell as it is, and buckets added up from the first on. -/
def Storage.reading (shape : Shape Value) : Storage → SeriesValue Value
  | scalar cell => .scalar cell
  | histogram buckets sumMilli count => .histogram shape.buckets (cumulate 0 buckets) sumMilli count

/-- The snapshot of a family, its series in the order of their values. -/
def Family.snapshot (name : String) (family : Family Value) : FamilySnapshot Value where
  name
  help := family.shape.help
  kind := family.shape.kind
  series := family.series.entries.map fun (values, storage) =>
    ⟨family.shape.labels.zip values, storage.reading family.shape⟩
  overflowed := family.overflowed

/-! ## The registry -/

/-- A name that a metric may have. -/
def validMetricName (name : String) : Bool :=
  match name.toList with
  | [] => false
  | first :: rest => decide (name.utf8ByteSize ≤ 128) &&
      (first.isAlpha || first = '_' || first = ':') &&
      (first :: rest).all fun character => character.isAlphanum || character = '_' || character = ':'

/-- A name that a label may have. Names with two underscores in front are reserved. -/
def validLabelName (name : String) : Bool :=
  match name.toList with
  | [] => false
  | first :: rest => decide (name.utf8ByteSize ≤ 64) && !(['_', '_'].isPrefixOf (first :: rest)) &&
      (first.isAlpha || first = '_') &&
      (first :: rest).all fun character => character.isAlphanum || character = '_'

/-- The families by the names of their metrics, and the ceiling on the series of each. -/
structure Registry (Value : Type) where
  families : OrderedMap String (Family Value)
  cap : Option Nat

namespace Registry

/-- A registry without metrics and with the default ceiling. -/
def new : Registry Value := ⟨.empty, none⟩

/-- A registry with a ceiling of its own, which is rounded up to one. -/
def withMaxSeries (maxSeries : Nat) : Registry Value := ⟨.empty, some (max maxSeries 1)⟩

/-- The ceiling that is in force. -/
def maxSeries (registry : Registry Value) : Nat := registry.cap.getD defaultMaxSeries

variable [DecidableEq Value]

/-- Registers an instrument, or finds the one of the same shape. -/
def family (registry : Registry Value) (name : String) (shape : Shape Value) :
    Except MetricsError (Registry Value) :=
  if !validMetricName name then .error .invalidName
  else if maxLabels < shape.labels.length then .error .tooManyLabels
  else if !(shape.labels.all validLabelName && decide shape.labels.Nodup) then
    .error .invalidLabelName
  else match registry.families.get? name with
    | some existing => if existing.shape = shape then .ok registry else .error .alreadyRegistered
    | none => .ok { registry with
        families := registry.families.insert name ⟨shape, registry.maxSeries, .empty, 0⟩ }

/-- Register a counter. -/
def counter (registry : Registry Value) (name help : String) (labels : List String) :
    Except MetricsError (Registry Value) := registry.family name ⟨.counter, help, labels, []⟩

/-- Register a gauge. -/
def gauge (registry : Registry Value) (name help : String) (labels : List String) :
    Except MetricsError (Registry Value) := registry.family name ⟨.gauge, help, labels, []⟩

/-- Bounds that do not increase from one to the next. -/
def unsorted (floats : Floats Value) : List Value → Bool
  | first :: second :: rest => floats.le second first || unsorted floats (second :: rest)
  | _ => false

/-- Register a histogram, whose bounds have to be finite and in strictly increasing order. -/
def histogram (floats : Floats Value) (registry : Registry Value) (name help : String)
    (labels : List String) (buckets : List Value) : Except MetricsError (Registry Value) :=
  if buckets.isEmpty || buckets.any (!floats.finite ·) || unsorted floats buckets then
    .error .invalidBuckets
  else registry.family name ⟨.histogram, help, labels, buckets⟩

/-- What all families read, in the order of their names. -/
def snapshot (registry : Registry Value) : List (FamilySnapshot Value) :=
  registry.families.entries.map fun (name, family) => family.snapshot name

end Registry

/-! ## Calls -/

/-- A call on the registry or, by its name, on an instrument it gave out. -/
inductive Call (Value : Type)
  | counter (name help : String) (labels : List String)
  | gauge (name help : String) (labels : List String)
  | histogram (name help : String) (labels : List String) (buckets : List Value)
  | increment (name : String) (labels : List (String × String)) (count : UInt64)
  | set (name : String) (labels : List (String × String)) (value : Value)
  | observe (name : String) (labels : List (String × String)) (value : Value)

/-- What a call on an instrument does to a storage, and what it records. -/
structure Record (Value : Type) where
  name : String
  kind : InstrumentKind
  labels : List (String × String)
  change : Shape Value → Storage → Storage
  amount : Nat
  observations : Nat

/-- What a call records, if it is none that registers a metric. -/
def Call.record (floats : Floats Value) : Call Value → Option (Record Value)
  | increment name labels count =>
      some ⟨name, .counter, labels, fun _ => .increment count, count.toNat * 1000, 0⟩
  | set name labels value =>
      some ⟨name, .gauge, labels, fun _ => .set (floats.toMilli value), 0, 0⟩
  | observe name labels value =>
      some ⟨name, .histogram, labels, fun shape => .observe floats shape.buckets value,
        (floats.toMilli value).toNat, 1⟩
  | _ => none

namespace Registry

variable [DecidableEq Value]

/-- The instrument a call is made on. -/
def handle (registry : Registry Value) (record : Record Value) : Option (Family Value) :=
  (registry.families.get? record.name).filter fun family => family.shape.kind = record.kind

/-- Record in the family of the name, where there is one of the kind that the call is for. -/
def apply (registry : Registry Value) (record : Record Value) : Registry Value :=
  match registry.handle record with
  | some family => { registry with
      families := registry.families.insert record.name
        (family.update record.labels (record.change family.shape)) }
  | none => registry

/-- What a call leaves of the registry. One that is refused changes nothing. -/
def call (floats : Floats Value) (registry : Registry Value) (call : Call Value) : Registry Value :=
  match call with
  | .counter name help labels => (registry.counter name help labels).toOption.getD registry
  | .gauge name help labels => (registry.gauge name help labels).toOption.getD registry
  | .histogram name help labels buckets =>
      (histogram floats registry name help labels buckets).toOption.getD registry
  | call => match call.record floats with
      | some record => registry.apply record
      | none => registry

end Registry

end Renvor.Metrics
