import Mathlib.Data.List.Infix
import Mathlib.Logic.Function.Basic
import Renvor.Foundation.Machine
import Renvor.Kernel.Text

/-! # The port of object stores

A key that exists has no segment a path could be led astray by, and a content type
that exists is a media type. Two keys are equal when their segments are
(`Renvor.ObjectKey.segments_injective`).
-/

namespace Renvor

open Foundation

/-- The most bytes a key may carry. -/
def maxKeyBytes : Nat := 1024

/-- The ceiling on one object where the application sets none. -/
def defaultMaxObjectBytes : Nat := 64 * 1024 * 1024

/-- The hard cap on the ceiling that an application can set for one object. -/
def maxObjectBytesCap : Nat := 1024 * 1024 * 1024

/-- The most bytes a content type may carry. -/
def maxContentTypeBytes : Nat := 255

/-- The bound an input broke, before any store was asked. -/
inductive StorageRefusal
  | keyInvalid | objectTooLarge | contentTypeInvalid | boundOutOfRange | settingsInvalid
  deriving DecidableEq

/-- Why a call of a store came to nothing. A refusal is of the input, the others are of the
store. -/
inductive StorageError
  | unavailable
  | timedOut
  | refused (refusal : StorageRefusal)
  | denied
  | capacity
  deriving DecidableEq

/-! ## Keys -/

/-- Device names of Windows. -/
def reservedStems : List String :=
  ["CON", "PRN", "AUX", "NUL", "COM1", "COM2", "COM3", "COM4", "COM5", "COM6", "COM7", "COM8",
    "COM9", "LPT1", "LPT2", "LPT3", "LPT4", "LPT5", "LPT6", "LPT7", "LPT8", "LPT9"]

/-- The characters of one byte that no segment holds; a longer one has no such byte. -/
def forbiddenInSegment (character : Char) : Bool :=
  character.toNat < 0x20 || character.toNat = 0x7f ||
    "\\:*?\"<>|".toList.contains character

/-- A segment that no file system takes for another name: no dots alone, no dot or blank at its
end, no forbidden character and no device. -/
def validSegment (segment : List Char) : Bool :=
  if segment = [] || segment = ['.'] || segment = ['.', '.'] then false
  else if segment.getLast? = some '.' || segment.getLast? = some ' ' then false
  else if segment.any forbiddenInSegment then false
  else
    let stem := segment.takeWhile (· ≠ '.')
    !reservedStems.any fun reserved => eqIgnoreAsciiCase (String.ofList stem) reserved

/-- A text is a key where it is neither empty nor too long and each of its segments is valid. -/
def ObjectKey.accepts (text : String) : Bool :=
  !text.isEmpty && text.utf8ByteSize ≤ maxKeyBytes && (text.toList.splitOn '/').all validSegment

/-- A key of an object, which exists only where its text was accepted. -/
structure ObjectKey where
  text : String
  valid : ObjectKey.accepts text = true
  deriving DecidableEq

namespace ObjectKey

/-- Make a key of a text, or refuse it. -/
def new (text : String) : Except StorageError ObjectKey :=
  if valid : accepts text = true then .ok ⟨text, valid⟩ else .error (.refused .keyInvalid)

/-- The segments of a key, between its slashes, as the path of its file is put together. -/
def segments (key : ObjectKey) : List String := (key.text.toList.splitOn '/').map String.ofList

/-- A key has at least one segment, since splitting a text gives no empty list. -/
theorem segments_ne_nil (key : ObjectKey) : key.segments ≠ [] :=
  fun none => List.splitOn_ne_nil _ _ (List.map_eq_nil_iff.mp none)

/-- **A key is its segments.** -/
theorem segments_injective : Function.Injective segments := by
  intro key other same
  have parts := List.map_injective_iff.mpr (fun _ _ => String.ofList_inj.mp) same
  have texts : key.text.toList = other.text.toList := by
    have whole : List.intercalate ['/'] (key.text.toList.splitOn '/') = key.text.toList :=
      List.intercalate_splitOn '/'
    rw [← whole, parts, List.intercalate_splitOn]
  obtain ⟨text, _⟩ := key
  obtain ⟨another, _⟩ := other
  cases String.toList_inj.mp texts
  rfl

/-- A key leads through another's: that one's file would be a directory of its path. -/
def Beneath (key other : ObjectKey) : Prop :=
  other.segments <+: key.segments ∧ other ≠ key

instance (key other : ObjectKey) : Decidable (key.Beneath other) := inferInstanceAs (Decidable (_ ∧ _))

end ObjectKey

/-! ## Content types -/

/-- The `tchar` of the media-type grammar. -/
def isTchar (character : Char) : Bool :=
  character.isAlphanum || "!#$%&'*+-.^_`|~".toList.contains character

/-- A token of the media-type grammar, which is not empty. -/
def isToken (text : List Char) : Bool := !text.isEmpty && text.all isTchar

/-- A string between quotes that has no control characters inside. -/
def isQuotedString (text : List Char) : Bool :=
  2 ≤ text.length && text.head? = some '"' && text.getLast? = some '"' &&
    !(text.tail.dropLast.any fun character => character.toNat < 0x20 || character.toNat = 0x7f)

/-- The blanks that may stand around the parts of a content type. -/
def isBlank (character : Char) : Bool := character = ' ' || character = '\t'

/-- A type and a subtype, each a token, with a slash between them. -/
def isMediaType (media : List Char) : Bool :=
  match splitOnce ['/'] (strip isBlank media) with
  | none => false
  | some (kind, subtype) => isToken kind && isToken subtype

/-- A parameter of a content type: a token, and for its value a token or a quoted string. -/
def isParameter (parameter : List Char) : Bool :=
  match splitOnce ['='] (strip isBlank parameter) with
  | none => false
  | some (name, value) => isToken name && (isToken value || isQuotedString value)

/-- A text is a content type where it is neither empty nor too long and follows the grammar. -/
def ContentType.accepts (text : String) : Bool :=
  !text.isEmpty && text.utf8ByteSize ≤ maxContentTypeBytes &&
    match text.toList.splitOn ';' with
    | [] => false
    | media :: parameters => isMediaType media && parameters.all isParameter

/-- The content type of an object, which exists only where its text was accepted. -/
structure ContentType where
  text : String
  valid : ContentType.accepts text = true
  deriving DecidableEq

namespace ContentType

/-- Make a content type of a text, or refuse it. -/
def new (text : String) : Except StorageError ContentType :=
  if valid : accepts text = true then .ok ⟨text, valid⟩
  else .error (.refused .contentTypeInvalid)

/-- The text of a content type is accepted again, as it is when a store reads it back. -/
theorem new_text (contentType : ContentType) : new contentType.text = .ok contentType :=
  dif_pos contentType.valid

/-- A content type is neither empty nor longer than the bound, so its length fits a header. -/
theorem size (contentType : ContentType) :
    0 < contentType.text.utf8ByteSize ∧ contentType.text.utf8ByteSize ≤ maxContentTypeBytes := by
  have valid := contentType.valid
  unfold accepts at valid
  rw [Bool.and_eq_true, Bool.and_eq_true, decide_eq_true_eq] at valid
  refine ⟨Nat.pos_of_ne_zero fun none => ?_, valid.1.2⟩
  have empty := String.utf8ByteSize_eq_zero_iff.mp none
  rw [empty] at valid
  simp at valid

end ContentType

/-! ## Bounds, objects and calls -/

/-- The ceiling on one object, which is positive and at most the hard cap. -/
structure StorageBounds where
  maxObjectBytes : Nat
  positive : 0 < maxObjectBytes
  capped : maxObjectBytes ≤ maxObjectBytesCap

namespace StorageBounds

/-- The bounds where the application sets none. -/
def default : StorageBounds := ⟨defaultMaxObjectBytes, by decide, by decide⟩

/-- Set the ceiling on one object, or refuse a ceiling of zero or over the hard cap. -/
def withMaxObjectBytes (bytes : Nat) : Except StorageError StorageBounds :=
  if range : bytes = 0 ∨ maxObjectBytesCap < bytes then .error (.refused .boundOutOfRange)
  else .ok ⟨bytes, by omega, by omega⟩

/-- Refuse an object that is larger than the ceiling; one of exactly that size passes. -/
def check (bounds : StorageBounds) (length : Nat) : Except StorageError Unit :=
  if bounds.maxObjectBytes < length then .error (.refused .objectTooLarge) else .ok ()

end StorageBounds

/-- What is told of an object without reading its bytes. -/
structure ObjectMeta where
  size : Nat
  contentType : Option ContentType
  deriving DecidableEq

/-- An object: its bytes, and the content type it was put with, if any. -/
structure Object where
  bytes : List UInt8
  contentType : Option ContentType
  deriving DecidableEq

/-- What is told of an object is its length and its content type. -/
def Object.meta (object : Object) : ObjectMeta := ⟨object.bytes.length, object.contentType⟩

/-- Whether there was an object to delete; that there was none is no error. -/
inductive Deleted
  | deleted | absent
  deriving DecidableEq

/-- A call of a store. -/
inductive StoreCall
  | put (key : ObjectKey) (bytes : List UInt8) (contentType : Option ContentType)
  | get (key : ObjectKey)
  | head (key : ObjectKey)
  | delete (key : ObjectKey)
  deriving DecidableEq

/-- The key a call is about. Every call is about exactly one. -/
def StoreCall.key : StoreCall → ObjectKey
  | put key _ _ | get key | head key | delete key => key

/-- What a store answers a call. -/
inductive StoreAnswer
  | put (result : Except StorageError Unit)
  | get (result : Except StorageError (Option Object))
  | head (result : Except StorageError (Option ObjectMeta))
  | delete (result : Except StorageError Deleted)
  deriving DecidableEq

/-- A bound refuses the call before anything is read or written. -/
def StoreCall.oversized (bounds : StorageBounds) : StoreCall → Bool
  | put _ bytes _ => bounds.maxObjectBytes < bytes.length
  | _ => false

/-! ## What a store is for -/

/-- The objects by key. -/
abbrev Catalogue := ObjectKey → Option Object

namespace Catalogue

/-- A store before anything was put in it. -/
def empty : Catalogue := fun _ => none

/-- A map from keys to objects answers a call. -/
def answer (bounds : StorageBounds) (objects : Catalogue) : StoreCall → Catalogue × StoreAnswer
  | .put key bytes contentType => match bounds.check bytes.length with
      | .error error => (objects, .put (.error error))
      | .ok () => (Function.update objects key (some ⟨bytes, contentType⟩), .put (.ok ()))
  | .get key => (objects, .get (.ok (objects key)))
  | .head key => (objects, .head (.ok ((objects key).map Object.meta)))
  | .delete key => match objects key with
      | some _ => (Function.update objects key none, .delete (.ok .deleted))
      | none => (objects, .delete (.ok .absent))

/-- The map from keys to objects, as a machine that answers one call after the other. -/
def machine (bounds : StorageBounds) : Machine Catalogue StoreCall StoreAnswer :=
  ⟨answer bounds⟩

end Catalogue

end Renvor
