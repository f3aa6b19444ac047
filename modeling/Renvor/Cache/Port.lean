import Renvor.Foundation.OrderedMap
import Renvor.Kernel.Text

/-! # The port of caches

What a call is given has passed its bounds when it was made. A namespace has no
colon, so the place a key is stored under tells the namespace and the key
(`Renvor.Cache.Namespace.place_injective`).
-/

namespace Renvor.Cache

/-- Nanoseconds of the monotonic clock. -/
abbrev Tick := Nat

/-- Whole seconds on the clock. -/
def Tick.seconds (count : Nat) : Tick := count * 1000000000

/-- The most bytes a key may carry, once the namespace is put in front of it. -/
def maxKeyBytes : Nat := 512

/-- The ceiling on a value's size where the application sets none. -/
def defaultMaxValueBytes : Nat := 1024 * 1024

/-- The hard cap on the ceiling that an application can set for a value's size. -/
def maxValueBytesCap : Nat := 8 * 1024 * 1024

/-- The shortest lifetime a value may be given. -/
def minTtl : Tick := .seconds 1

/-- The ceiling on a lifetime where the application sets none. -/
def defaultMaxTtl : Tick := .seconds (7 * 24 * 60 * 60)

/-- The hard cap on the ceiling that an application can set for a lifetime. -/
def maxTtlCap : Tick := .seconds (30 * 24 * 60 * 60)

/-- The most bytes a namespace may carry. -/
def maxNamespaceBytes : Nat := 64

/-- The bound an input broke. -/
inductive CacheRefusal
  | keyEmpty | keyTooLong | keyHasControlCharacter | keyHasWhitespace | valueTooLarge | ttlTooShort
  | ttlTooLong | namespaceInvalid | boundOutOfRange
  deriving DecidableEq

/-- Why a call of a cache came to nothing: its input was refused, or the cache is full. -/
inductive CacheError
  | refused (refusal : CacheRefusal)
  | capacity
  deriving DecidableEq

/-! ## Bounds -/

/-- The ceilings on a value and on a lifetime, each within its hard cap. -/
structure CacheBounds where
  maxValueBytes : Nat
  maxTtl : Tick
  valueCapped : 0 < maxValueBytes ∧ maxValueBytes ≤ maxValueBytesCap
  ttlCapped : minTtl ≤ maxTtl ∧ maxTtl ≤ maxTtlCap

namespace CacheBounds

/-- The bounds where the application sets none. -/
def new : CacheBounds := ⟨defaultMaxValueBytes, defaultMaxTtl, by decide, by decide⟩

/-- Set the ceiling on a value's size, or refuse one of zero or over the hard cap. -/
def withMaxValueBytes (bounds : CacheBounds) (bytes : Nat) : Except CacheError CacheBounds :=
  if capped : 0 < bytes ∧ bytes ≤ maxValueBytesCap then
    .ok { bounds with maxValueBytes := bytes, valueCapped := capped }
  else .error (.refused .boundOutOfRange)

/-- Set the ceiling on a lifetime, or refuse one under the shortest lifetime or over the hard
cap. -/
def withMaxTtl (bounds : CacheBounds) (maxTtl : Tick) : Except CacheError CacheBounds :=
  if capped : minTtl ≤ maxTtl ∧ maxTtl ≤ maxTtlCap then
    .ok { bounds with maxTtl := maxTtl, ttlCapped := capped }
  else .error (.refused .boundOutOfRange)

end CacheBounds

/-! ## Keys and namespaces -/

/-- The characters a namespace is written with, among which there is no colon. -/
def Namespace.character (character : Char) : Bool :=
  character.isLower || character.isDigit || character = '_' || character = '.' || character = '-'

/-- A text is a namespace where it is neither empty nor too long and has these characters only. -/
def Namespace.accepts (text : String) : Bool :=
  !text.isEmpty && text.utf8ByteSize ≤ maxNamespaceBytes && text.toList.all Namespace.character

/-- The name of a part of the cache, which exists only where its text was accepted. -/
structure Namespace where
  text : String
  valid : Namespace.accepts text = true

/-- Make a namespace of a text, or refuse it. -/
def Namespace.new (text : String) : Except CacheError Namespace :=
  if valid : accepts text = true then .ok ⟨text, valid⟩ else .error (.refused .namespaceInvalid)

/-- The first rule a key fails. -/
def CacheKey.fault (text : String) : Option CacheRefusal :=
  if text.isEmpty then some .keyEmpty
  else if maxKeyBytes < text.utf8ByteSize then some .keyTooLong
  else match text.toList.find? fun character => isControl character || isWhitespace character with
    | none => none
    | some character =>
        if isControl character then some .keyHasControlCharacter else some .keyHasWhitespace

/-- A key of a value, which exists only where no rule for keys refused its text. -/
structure CacheKey where
  text : String
  valid : CacheKey.fault text = none
  deriving DecidableEq

/-- Make a key of a text, or tell the first rule that it fails. -/
def CacheKey.new (text : String) : Except CacheError CacheKey :=
  match faulty : fault text with
  | none => .ok ⟨text, faulty⟩
  | some refusal => .error (.refused refusal)

namespace Namespace

/-- Where a key is stored. -/
def place (ns : Namespace) (key : CacheKey) : String := ns.text ++ ":" ++ key.text

/-- The place of a key, where it is not too long to be stored. -/
def qualify (ns : Namespace) (key : CacheKey) : Except CacheError String :=
  if maxKeyBytes < (ns.place key).utf8ByteSize then .error (.refused .keyTooLong)
  else .ok (ns.place key)

/-- No namespace has a colon, so the first colon of a place is the one that ends its namespace. -/
theorem colon_not_mem (ns : Namespace) : ':' ∉ ns.text.toList := by
  intro member
  have accepted := ns.valid
  simp only [accepts, Bool.and_eq_true, List.all_eq_true] at accepted
  have allowed := accepted.2 _ member
  revert allowed
  decide

/-- The place of a key, as characters: its namespace, a colon, and the key as it is. -/
theorem toList_place (ns : Namespace) (key : CacheKey) :
    (ns.place key).toList = ns.text.toList ++ ':' :: key.text.toList := by
  simp [place, String.toList_append]

/-- **A place tells the namespace and the key.** -/
theorem place_injective {ns other : Namespace} {key another : CacheKey}
    (same : ns.place key = other.place another) : ns = other ∧ key = another := by
  have parts : splitOnce [':'] (ns.place key).toList = splitOnce [':'] (other.place another).toList := by
    rw [same]
  rw [toList_place, toList_place, splitOnce_cons ns.colon_not_mem,
    splitOnce_cons other.colon_not_mem] at parts
  obtain ⟨front, back⟩ := Prod.ext_iff.mp (Option.some.inj parts)
  constructor
  · obtain ⟨text, _⟩ := ns
    obtain ⟨another, _⟩ := other
    cases String.toList_inj.mp front
    rfl
  · obtain ⟨text, _⟩ := key
    obtain ⟨another, _⟩ := another
    cases String.toList_inj.mp back
    rfl

end Namespace

/-! ## Values and lifetimes -/

/-- A value no ceiling that can be configured is under. -/
structure CacheValue where
  bytes : List UInt8
  bounded : bytes.length ≤ maxValueBytesCap

/-- Make a value of some bytes, or refuse more of them than the ceiling of the bounds allows. -/
def CacheValue.within (bytes : List UInt8) (bounds : CacheBounds) : Except CacheError CacheValue :=
  if fits : bytes.length ≤ bounds.maxValueBytes then
    .ok ⟨bytes, fits.trans bounds.valueCapped.2⟩
  else .error (.refused .valueTooLarge)

/-- A lifetime, which is neither too short nor over the hard cap. -/
structure Ttl where
  duration : Tick
  bounded : minTtl ≤ duration ∧ duration ≤ maxTtlCap

/-- Make a lifetime of a duration, or refuse one that is too short or over the ceiling of the
bounds. -/
def Ttl.within (duration : Tick) (bounds : CacheBounds) : Except CacheError Ttl :=
  if short : duration < minTtl then .error (.refused .ttlTooShort)
  else if fits : duration ≤ bounds.maxTtl then
    .ok ⟨duration, Nat.le_of_not_lt short, Nat.le_trans fits bounds.ttlCapped.2⟩
  else .error (.refused .ttlTooLong)

/-- A lifetime is positive, so a value is live when it is stored. -/
theorem Ttl.positive (ttl : Ttl) : 0 < ttl.duration :=
  Nat.lt_of_lt_of_le (by decide) ttl.bounded.1

/-- Whether a value was stored, or one that was live kept it from being stored. -/
inductive Stored
  | stored | alreadyPresent

/-- Whether there was a value to delete. -/
inductive Deleted
  | removed | absent

end Renvor.Cache
