import Mathlib
import Renvor.Foundation.JsonRead
import Renvor.Foundation.MapEntries
import Renvor.Kernel.Text

/-! # Events as JSON lines

The fields of an event are collected under the redaction rule and written as one object on
one line (`Renvor.Observe.formatEvent_line`). A span's fields are written when it is created
and again for each later record, and read back for every event inside it.
-/

namespace Renvor.Observe

open Foundation (Json OrderedMap)

/-! ## The redaction rule -/

/-- The marker a redacted value is replaced with. -/
def redacted : String := "[REDACTED]"

/-- The most bytes of one rendered value that are emitted. -/
def maxValueBytes : Nat := 1024

/-- The names that are always redacted. -/
def builtIn : List String :=
  ["password", "passphrase", "secret", "token", "authorization", "cookie", "set-cookie", "dsn",
    "connection_string", "api_key", "private_key", "credential"]

def toAsciiLowercase (text : String) : String := String.ofList (text.toList.map Char.toLower)

/-- The built-in names and those an author added, stored in lower case. -/
structure Redaction where
  extra : List String
  lowered : ∀ name ∈ extra, toAsciiLowercase name = name

theorem toAsciiLowercase_again (text : String) :
    toAsciiLowercase (toAsciiLowercase text) = toAsciiLowercase text := by
  rw [toAsciiLowercase, toAsciiLowercase, String.toList_ofList, List.map_map]
  exact congrArg String.ofList (List.map_congr_left fun character _ => Char.toLower_toLower_eq_toLower character)

theorem lowered_append {names : List String} {added : String}
    (lowered : ∀ name ∈ names, toAsciiLowercase name = name)
    (low : toAsciiLowercase added = added) :
    ∀ name ∈ names ++ [added], toAsciiLowercase name = name := by
  intro name member
  rcases List.mem_append.mp member with held | last
  · exact lowered name held
  · rw [List.mem_singleton.mp last, low]

namespace Redaction

/-- The built-in set alone. -/
def new : Redaction := ⟨[], fun _ member => (List.not_mem_nil member).elim⟩

/-- Adds a field name to redact. -/
def withField (rule : Redaction) (name : String) : Redaction :=
  if toAsciiLowercase (trim name) = "" ∨ toAsciiLowercase (trim name) ∈ rule.extra then rule
  else ⟨rule.extra ++ [toAsciiLowercase (trim name)],
    lowered_append rule.lowered (toAsciiLowercase_again _)⟩

/-- What follows the last dot of a name. -/
def lastSegment (name : String) : String := String.ofList (name.toList.rtakeWhile (· ≠ '.'))

def isListed (rule : Redaction) (candidate : String) : Bool :=
  builtIn.contains candidate || rule.extra.contains candidate

/-- Whether a field is redacted. -/
def appliesTo (rule : Redaction) (name : String) : Bool :=
  let lower := toAsciiLowercase name
  rule.isListed lower || rule.isListed (lastSegment lower)

end Redaction

/-- The characters at the front that fit in so many bytes. -/
def within : Nat → List Char → List Char
  | budget, character :: rest =>
      if character.utf8Size ≤ budget then character :: within (budget - character.utf8Size) rest
      else []
  | _, [] => []

/-- A rendered value cut inside the bound with a marker, or as it is. -/
def bounded (rendered : String) : String :=
  if rendered.utf8ByteSize ≤ maxValueBytes then rendered
  else
    let kept := String.ofList (within maxValueBytes rendered.toList)
    kept ++ "…[truncated " ++ toString (rendered.utf8ByteSize - kept.utf8ByteSize) ++ " bytes]"

/-! ## Collecting fields -/

/-- The text of a whole number. -/
def integerText (value : Int) : List Char :=
  if value < 0 then '-' :: Nat.toDigits 10 value.natAbs else Nat.toDigits 10 value.natAbs

theorem isDigit_toDigits {number : Nat} {character : Char} (member : character ∈ Nat.toDigits 10 number) :
    Json.isDigit character = true := by
  have digit := Nat.isDigit_of_mem_toDigits (by decide) (Nat.le_refl 10) member
  simpa [Char.isDigit, Json.isDigit, Char.le_def] using digit

/-- The first digit of a number that is not zero is not zero. -/
theorem toDigits_begins {number : Nat} (positive : 0 < number) :
    ∃ first rest, Nat.toDigits 10 number = first :: rest ∧ first ≠ '0' := by
  induction number using Nat.strong_induction_on with
  | _ number ih =>
    by_cases small : number < 10
    · refine ⟨number.digitChar, [], Nat.toDigits_of_lt_base small, ?_⟩
      rw [Ne, Nat.digitChar_eq_zero]
      omega
    · obtain ⟨first, rest, whole, other⟩ := ih (number / 10) (by omega) (by omega)
      rw [Nat.toDigits_of_base_le (by decide) (by omega), whole]
      exact ⟨first, _, rfl, other⟩

theorem afterDigits_all {text : List Char} (some_digit : text ≠ [])
    (digits : ∀ character ∈ text, Json.isDigit character = true) : Json.afterDigits text = some [] := by
  cases text with
  | nil => exact (some_digit rfl).elim
  | cons first rest =>
      rw [Json.afterDigits, if_pos (digits first List.mem_cons_self)]
      exact congrArg some (List.dropWhile_eq_nil_iff.mpr fun character member =>
        digits character (List.mem_cons_of_mem first member))

theorem afterWhole_toDigits (number : Nat) : Json.afterWhole (Nat.toDigits 10 number) = some [] := by
  rcases Nat.eq_zero_or_pos number with rfl | positive
  · rfl
  · obtain ⟨first, rest, whole, other⟩ := toDigits_begins positive
    have all := afterDigits_all Nat.toDigits_ne_nil (fun _ => @isDigit_toDigits number _)
    rw [whole] at all ⊢
    unfold Json.afterWhole
    split
    next same => exact (other (List.cons.inj same).1).elim
    next => exact all

theorem isNumber_integerText (value : Int) : Json.isNumber (integerText value) = true := by
  have whole : Json.afterMinus (integerText value) = Nat.toDigits 10 value.natAbs := by
    unfold integerText
    split
    · rfl
    · unfold Json.afterMinus
      split
      next rest same =>
        have digit := @isDigit_toDigits value.natAbs _ (same ▸ List.mem_cons_self)
        exact absurd digit (by decide)
      next => rfl
  rw [Json.isNumber, whole, afterWhole_toDigits]
  decide

def integer (value : Int) : Json := .number ⟨integerText value, isNumber_integerText value⟩

/-- The doubles and what the JSON library makes of them: the text of a finite one, and how a
decimal that was read is written again. -/
structure Floats where
  Float : Type
  numeral : Float → Option Json.Numeral
  reread : Json.Numeral → Option Json.Numeral

/-- A value as it is recorded. -/
inductive Recorded (Float : Type)
  | text (rendered : String)
  | signed (value : Int64)
  | unsigned (value : UInt64)
  | float (value : Float)
  | bool (value : Bool)

abbrev Field (floats : Floats) := String × Recorded floats.Float

variable {floats : Floats}

/-- A value as JSON has it. -/
def Recorded.json : Recorded floats.Float → Json
  | .text rendered => .string rendered
  | .signed value => integer value.toInt
  | .unsigned value => integer value.toNat
  | .float value => match floats.numeral value with
      | some numeral => .number numeral
      | none => .null
  | .bool value => .bool value

/-- A value whose text is bounded. -/
def boundedValue : Json → Json
  | .string text => .string (bounded text)
  | other => other

/-- Collects a record's fields under the redaction rule. -/
structure Collector where
  fields : OrderedMap String Json
  message : Option String

namespace Collector

def new : Collector := ⟨.empty, none⟩

def put (rule : Redaction) (collector : Collector) (name : String) (value : Json) : Collector :=
  if rule.appliesTo name then
    { collector with fields := collector.fields.insert name (.string redacted) }
  else
    if name = "message" then
      match boundedValue value with
      | .string text => { collector with message := some text }
      | _ => collector
    else { collector with fields := collector.fields.insert name (boundedValue value) }

/-- Visits the fields of a record. -/
def record (rule : Redaction) (fields : List (Field floats)) : Collector :=
  fields.foldl (fun collector field => collector.put rule field.1 field.2.json) new

/-- The fields with the message among them. -/
def withMessage (collector : Collector) : OrderedMap String Json :=
  match collector.message with
  | some message => collector.fields.insert "message" (.string message)
  | none => collector.fields

end Collector

/-! ## The fields of a span -/

/-- The pairs of an object, without its braces. -/
def pairs (fields : OrderedMap String Json) : List Char :=
  Json.joined (Json.writeMembers fields.entries)

/-- Formats the fields a span is created with. -/
def formatFields (rule : Redaction) (fields : List (Field floats)) : List Char :=
  pairs (Collector.record rule fields).withMessage

/-- Formats the fields of a later record after those there are. -/
def addFields (rule : Redaction) (current : List Char) (fields : List (Field floats)) : List Char :=
  let pairs := formatFields rule fields
  if pairs = [] then current
  else if current = [] then pairs
  else current ++ ',' :: pairs

/-- A value as it is once read: a decimal is rounded. -/
def settle (floats : Floats) : Json → Option Json
  | .number numeral =>
      if numeral.isDecimal then (floats.reread numeral).map .number else some (.number numeral)
  | other => some other

/-- Reads a value from a text. -/
def fromStr (floats : Floats) (text : List Char) : Option Json :=
  match Json.read text with
  | some (.object members) =>
      (members.mapM fun member => (settle floats member.2).map (Prod.mk member.1)).map
        -- the last of the members of one name is kept
        fun members => .object (OrderedMap.ofEntries members).entries
  | other => other.bind (settle floats)

/-- The stored fields of a span, read back as an object. -/
def spanFields (floats : Floats) (stored : List Char) : List (String × Json) :=
  if stored = [] then []
  else match fromStr floats ('{' :: stored ++ ['}']) with
    | some (.object members) => members
    | _ => []

/-! ## Events -/

variable (floats) in
/-- A span: its name, the fields it was created with, and those recorded later. -/
structure Span where
  name : String
  attributes : List (Field floats)
  records : List (List (Field floats))

/-- What is stored for a span. -/
def Span.stored (rule : Redaction) (span : Span floats) : List Char :=
  span.records.foldl (addFields rule) (formatFields rule span.attributes)

variable (floats) in
/-- An event, and the spans around it, outermost first. -/
structure Event where
  level : String
  target : String
  fields : List (Field floats)
  spans : List (Span floats)

/-- One field of a span, put into its entry. -/
def lift (state : OrderedMap String Json × Option String) (field : String × Json) :
    OrderedMap String Json × Option String :=
  (state.1.insert field.1 field.2,
    match field with
    | ("run_id", .string id) => some id
    | _ => state.2)

/-- The entry of a span, and the run it names. -/
def spanEntry (rule : Redaction) (span : Span floats) (runId : Option String) :
    OrderedMap String Json × Option String :=
  (spanFields floats (span.stored rule)).foldl lift
    ((.insert .empty "name" (.string span.name)), runId)

/-- The entries of the spans, and the run the innermost names. -/
def spanEntries (rule : Redaction) :
    List (Span floats) → Option String → List Json × Option String
  | [], runId => ([], runId)
  | span :: rest, runId =>
      let (entry, runId) := spanEntry rule span runId
      let (entries, runId) := spanEntries rule rest runId
      (.object entry.entries :: entries, runId)

/-- The object an event is written as. -/
def Event.object (rule : Redaction) (timestamp : String) (event : Event floats) :
    OrderedMap String Json :=
  let collector := Collector.record rule event.fields
  let record : OrderedMap String Json := .insert .empty "timestamp" (.string timestamp)
  let record := record.insert "level" (.string event.level)
  let record := record.insert "target" (.string event.target)
  let record := match collector.message with
    | some message => record.insert "message" (.string message)
    | none => record
  let record := record.insert "fields" (.object collector.fields.entries)
  let (spans, runId) := spanEntries rule event.spans none
  let record := match runId with
    | some runId => record.insert "run_id" (.string runId)
    | none => record
  if spans = [] then record else record.insert "spans" (.array spans)

/-- Formats one event as one JSON object on one line. -/
def formatEvent (rule : Redaction) (timestamp : String) (event : Event floats) : List Char :=
  Json.write (.object (event.object rule timestamp).entries) ++ ['\n']

/-- **A line holds one object**, which it is read as, and no line break but the last. -/
theorem formatEvent_line (rule : Redaction) (timestamp : String) (event : Event floats) :
    ∃ line, formatEvent rule timestamp event = line ++ ['\n'] ∧ '\n' ∉ line ∧
      Json.read line = some (.object (event.object rule timestamp).entries) :=
  ⟨_, rfl, Json.newline_write _, Json.read_write _⟩

end Renvor.Observe
