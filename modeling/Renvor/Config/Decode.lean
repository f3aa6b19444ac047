import Mathlib.Algebra.GroupWithZero.Nat
import Renvor.Config.Environment
import Renvor.Config.Settings

/-! # Decoding a source

A source is decoded against the declared schema before anything is merged. Only when that
fails is the key looked for that fails, branch by branch, each as a document of its own.
-/

namespace Renvor.Decode

open Environment

/-! ## How deep a value nests -/

mutual

/-- How many values a value is made of. -/
def size : TomlValue → Nat
  | .table entries => sizeEntries entries + 1
  | .array items => sizeItems items + 1
  | _ => 1

def sizeEntries : TomlTable → Nat
  | [] => 0
  | entry :: rest => sizeEntry entry + sizeEntries rest

def sizeEntry : String × TomlValue → Nat
  | (_, value) => size value

def sizeItems : List TomlValue → Nat
  | [] => 0
  | item :: rest => size item + sizeItems rest

end

/-- The values right inside a value, one level deeper. -/
def inside (level : Nat) : TomlValue → List (TomlValue × Nat)
  | .table entries => entries.map fun entry => (entry.2, level + 1)
  | .array items => items.map fun item => (item, level + 1)
  | _ => []

/-- How much is left to look at. -/
def remaining (pending : List (TomlValue × Nat)) : Nat :=
  (pending.map fun item => size item.1).sum

theorem sizeEntries_eq (entries : TomlTable) :
    sizeEntries entries = (entries.map fun entry => size entry.2).sum := by
  induction entries with
  | nil => rfl
  | cons entry rest ih =>
      rw [sizeEntries, sizeEntry, ih, List.map_cons, List.sum_cons]

theorem sizeItems_eq (items : List TomlValue) : sizeItems items = (items.map size).sum := by
  induction items with
  | nil => rfl
  | cons item rest ih => rw [sizeItems, ih, List.map_cons, List.sum_cons]

theorem remaining_inside (level : Nat) (value : TomlValue) :
    remaining (inside level value) + 1 = size value := by
  unfold remaining inside
  cases value with
  | table entries =>
      rw [size, sizeEntries_eq, List.map_map]
      rfl
  | array items =>
      rw [size, sizeItems_eq, List.map_map]
      rfl
  | string | integer | float | boolean | datetime => rfl

theorem remaining_step (level : Nat) (value : TomlValue) (rest : List (TomlValue × Nat)) :
    remaining ((inside level value).reverse ++ rest) < remaining ((value, level) :: rest) := by
  have step := remaining_inside level value
  unfold remaining at step ⊢
  simp only [List.map_append, List.map_reverse, List.sum_append, List.sum_reverse, List.map_cons,
    List.sum_cons]
  omega

/-- Whether a value that is pending nests too deep; the last that came is looked at first. -/
def exceedsFrom (ceiling : Nat) : List (TomlValue × Nat) → Bool
  | [] => false
  | (value, level) :: rest =>
      if ceiling < level then true else exceedsFrom ceiling ((inside level value).reverse ++ rest)
termination_by pending => remaining pending
decreasing_by exact remaining_step level value rest

/-- Whether a value nests deeper than a ceiling. -/
def exceedsDepth (value : TomlValue) (ceiling : Nat) : Bool := exceedsFrom ceiling [(value, 1)]

/-! ## Schemas -/

/-- **What a configuration is declared to hold**, where no field is required: a value that
is no table, a table with declared fields, which may refuse others, or with any keys. -/
inductive Shape
  | anything
  | scalar (accepts : TomlValue → Except String Unit)
  | either (accepts : TomlValue → Except String Unit) (tables : Shape)
  | map (values : Shape)
  | structure (fields : List (String × Shape)) (closed : Bool)

mutual

def Shape.decode : Shape → TomlValue → Except String Unit
  | .anything, _ => .ok ()
  | .scalar accepts, value => match value with
      | .table _ => .error "invalid type"
      | other => accepts other
  | .either accepts tables, value => match value with
      | .table _ => tables.decode value
      | other => accepts other
  | .map values, value => match value with
      | .table entries => entries.forM fun entry => values.decode entry.2
      | _ => .error "invalid type"
  | .structure fields closed, value => match value with
      | .table entries => entries.forM fun entry => decodeField fields closed entry
      | _ => .error "invalid type"

def decodeField : List (String × Shape) → Bool → String × TomlValue → Except String Unit
  | [], closed, _ => if closed then .error "unknown field" else .ok ()
  | field :: rest, closed, entry =>
      if field.1 = entry.1 then decodeNamed field entry.2 else decodeField rest closed entry

def decodeNamed : String × Shape → TomlValue → Except String Unit
  | (_, shape), value => shape.decode value

end

/-- A declared configuration, which an empty source fits. -/
structure Declared where
  shape : Shape
  empty : shape.decode (.table []) = .ok ()

def Declared.schema (declared : Declared) : Schema := fun table =>
  declared.shape.decode (.table table)

/-! ## Decoding -/

/-- The segments of a dotted key. -/
def segments (key : String) : List String := (splitDots key.toList).map String.ofList

/-- A value under a dotted key. -/
def nestAt (key : String) (value : TomlValue) : TomlTable := nest (segments key) value

/-- A failure: its key, the decoder's report, and the shape that was found. -/
structure Located where
  key : String
  report : String
  found : String

section Decode

variable (schema : Schema)

mutual

/-- The smallest part of a table that fails. -/
def locateFailure (leading fallback : String) : TomlTable → Located
  | [] => ⟨if leading.isEmpty then "<source>" else leading, fallback, "a table"⟩
  | entry :: rest => match locateEntry leading entry with
      | some located => located
      | none => locateFailure leading fallback rest

def locateEntry (leading : String) : String × TomlValue → Option Located
  | (key, value) => match schema (nestAt (dottedBelow leading key) value) with
      | .ok () => none
      | .error report => some (narrow (dottedBelow leading key) report value)

/-- A part that fails, or a smaller one of it. -/
def narrow (path report : String) : TomlValue → Located
  | .table inner =>
      if (locateFailure path report inner).key ≠ path then locateFailure path report inner
      else ⟨path, report, "a table"⟩
  | value => ⟨path, report, Environment.shapeOf value⟩

end

/-- Decodes one source. -/
def decodeSource (table : TomlTable) : Except EnvironmentError Unit :=
  match table.find? fun entry => exceedsDepth entry.2 maxValueDepth with
  | some entry => .error (.valueTooDeep entry.1 maxValueDepth)
  | none => match schema table with
      | .ok () => .ok ()
      | .error report =>
          let located := locateFailure schema "" report table
          .error (.undecoded located.key located.report located.found)

/-- Decodes one key. -/
def decodeSingle (key : String) (value : TomlValue) : Except EnvironmentError Unit :=
  if maxKeyDepth < (splitDots key.toList).length then .error (.keyTooDeep key maxKeyDepth)
  else if exceedsDepth value maxValueDepth then .error (.valueTooDeep key maxValueDepth)
  else match schema (nestAt key value) with
    | .ok () => .ok ()
    | .error report => .error (.undecoded key report (Environment.shapeOf value))

end Decode

end Renvor.Decode
