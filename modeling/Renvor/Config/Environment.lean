import Mathlib.Data.List.DropRight
import Mathlib.Data.List.Infix
import Renvor.Config.Merge

/-! # The environment layer

Each variable under a prefix names a key; its text is decoded as a scalar of the file
format or kept as text, and is grafted onto the layer under that key.
-/

namespace Renvor.Environment

/-- The deepest key a variable may describe. -/
def maxKeyDepth : Nat := 32

/-- The deepest value that is decoded. -/
def maxValueDepth : Nat := 128

/-! ## Keys -/

def stripLeading (leading text : List Char) : Option (List Char) :=
  if leading.isPrefixOf text then some (text.drop leading.length) else none

/-- Two underscores become a dot. -/
def replaceSeparator : List Char → List Char
  | '_' :: '_' :: rest => '.' :: replaceSeparator rest
  | character :: rest => character :: replaceSeparator rest
  | [] => []

/-- A character before the first of some parts. -/
def beforeFirst (character : Char) : List (List Char) → List (List Char)
  | first :: rest => (character :: first) :: rest
  | [] => [[character]]

/-- The parts of a text between dots. -/
def splitDots : List Char → List (List Char)
  | [] => [[]]
  | character :: rest =>
      if character = '.' then [] :: splitDots rest else beforeFirst character (splitDots rest)

/-! ## Values -/

mutual

/-- How deep a value nests. -/
def depth : TomlValue → Nat
  | .table entries => depthEntries entries + 1
  | .array items => depthItems items + 1
  | _ => 1

def depthEntries : TomlTable → Nat
  | [] => 0
  | entry :: rest => max (depthEntry entry) (depthEntries rest)

def depthEntry : String × TomlValue → Nat
  | (_, value) => depth value

def depthItems : List TomlValue → Nat
  | [] => 0
  | item :: rest => max (depth item) (depthItems rest)

end

/-- A value under a path. -/
def nest : List String → TomlValue → TomlTable
  | [], _ => []
  | [segment], value => [(segment, value)]
  | segment :: rest, value => [(segment, .table (nest rest value))]

/-- The structural shape of a value. -/
def shapeOf : TomlValue → String
  | .table _ => "a table"
  | .array _ => "an array"
  | .string _ => "a string"
  | .integer _ => "an integer"
  | .float _ => "a float"
  | .boolean _ => "a boolean"
  | .datetime _ => "a datetime"

/-- Why a variable is refused, and under which key. -/
inductive EnvironmentError
  | keyTooDeep (key : String) (maximumDepth : Nat)
  | valueTooDeep (key : String) (maximumDepth : Nat)
  | undecoded (key report found : String)
  deriving DecidableEq

/-- The declared configuration: which tables decode, or a decoder's report. -/
abbrev Schema := TomlTable → Except String Unit

/-- **The file format.** A document is read as a table, and a text may be one value. What
is one value is what a key is given when it is written after it, and no text is a string of
itself, as strings are quoted. -/
structure Toml where
  document : String → Option TomlTable
  value : String → Option TomlValue
  assigned : ∀ {text held}, value text = some held →
    document ("value = " ++ text) = some [("value", held)]
  quoted : ∀ {text table}, document ("value = " ++ text) = some table →
    table.lookup "value" ≠ some (.string text)

/-- A key's path, and as errors name it. -/
structure Key where
  name : String
  path : List String
  deriving DecidableEq

/-- The key of a variable, after its prefix, in lower case. -/
def Key.of (lowered : List Char) : Key where
  name := String.ofList (replaceSeparator lowered)
  path := (splitDots (replaceSeparator lowered)).map String.ofList

section Decode

variable (toml : Toml) (schema : Schema)

/-- A text as a scalar of the format. -/
def parseScalar (text : String) : Option TomlValue :=
  (toml.document ("value = " ++ text)).bind fun table => table.lookup "value"

/-- Decodes one key against the schema. -/
def decodeSingle (key : Key) (value : TomlValue) : Except EnvironmentError Unit :=
  if maxKeyDepth < key.path.length then .error (.keyTooDeep key.name maxKeyDepth)
  else if maxValueDepth < depth value then .error (.valueTooDeep key.name maxValueDepth)
  else match schema (nest key.path value) with
    | .ok () => .ok ()
    | .error report => .error (.undecoded key.name report (shapeOf value))

/-- The first of some values that decodes, or the last error. -/
def firstDecoded (key : Key) (last : EnvironmentError) :
    List TomlValue → Except EnvironmentError TomlValue
  | [] => .error last
  | candidate :: rest => match decodeSingle schema key candidate with
      | .ok () => .ok candidate
      | .error error => firstDecoded key error rest

/-- The form of a text that decodes. -/
def decodeVariable (key : Key) (text : String) : Except EnvironmentError TomlValue :=
  firstDecoded schema key
    (.undecoded key.name "the value could not be decoded in any accepted form" "")
    ((parseScalar toml text).toList ++ [.string text])

mutual

/-- Grafts a branch onto a table, merging tables. -/
def graft (table : TomlTable) (name : String) : TomlValue → TomlTable
  | .table incoming => match table.lookup name with
      | some (.table existing) =>
          TomlTable.insert name (.table (graftAll existing incoming)) table
      | _ => TomlTable.insert name (.table incoming) table
  | value => TomlTable.insert name value table

def graftAll (table : TomlTable) : TomlTable → TomlTable
  | [] => table
  | entry :: rest => graftAll (graftEntry table entry) rest

def graftEntry (table : TomlTable) : String × TomlValue → TomlTable
  | (name, value) => graft table name value

end

/-- Inserts a key into a table. -/
def mergeInto (table : TomlTable) (path : List String) (value : TomlValue) : TomlTable :=
  graftAll table (nest path value)

/-- Reads a variable into the layer. -/
def readVariable (lower : List Char → List Char) (leading : String) (table : TomlTable)
    (entry : String × String) : Except EnvironmentError TomlTable :=
  match stripLeading leading.toList entry.1.toList with
  | none => .ok table
  | some remainder =>
      if remainder.isEmpty then .ok table
      else
        let key := Key.of (lower remainder)
        if maxKeyDepth < key.path.length then .error (.keyTooDeep key.name maxKeyDepth)
        else do
          let value ← decodeVariable toml schema key entry.2
          return mergeInto table key.path value

/-- Reads the variables under a prefix into a layer. -/
def readEnvironment (lower : List Char → List Char) (leading : String)
    (environment : List (String × String)) : Except EnvironmentError TomlTable :=
  environment.foldlM (readVariable toml schema lower leading) []

end Decode

end Renvor.Environment
