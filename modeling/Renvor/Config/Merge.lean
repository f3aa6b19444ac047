import Mathlib.Data.List.Induction
import Mathlib.Logic.Function.Basic
import Mathlib.Tactic.Common

/-! # Merging configuration layers

Layers are merged lowest first: tables key by key, everything else whole. Each
leaf is attributed to the layer that wrote it, under its dotted path, and a path
given two shapes is refused.
-/

namespace Renvor

/-- A TOML value. -/
inductive TomlValue
  | string (text : String)
  | integer (value : Int)
  | float (bits : Nat)
  | boolean (value : Bool)
  | datetime (text : String)
  | array (items : List TomlValue)
  | table (entries : List (String × TomlValue))

/-- A table's entries. -/
abbrev TomlTable := List (String × TomlValue)

namespace TomlTable

/-- Puts a value under a key, in the place of the key if it is there. -/
def insert (key : String) (value : TomlValue) : TomlTable → TomlTable
  | [] => [(key, value)]
  | (other, held) :: rest =>
      if other = key then (key, value) :: rest else (other, held) :: insert key value rest

theorem lookup_insert (key other : String) (value : TomlValue) (table : TomlTable) :
    (insert key value table).lookup other =
      if other = key then some value else table.lookup other := by
  induction table with
  | nil =>
      by_cases same : other = key
      · rw [if_pos same, same]
        exact List.lookup_cons_self ..
      · rw [if_neg same]
        show (match other == key with | true => some value | false => none) = none
        rw [beq_eq_false_iff_ne.mpr same]
  | cons entry rest ih =>
      obtain ⟨first, held⟩ := entry
      unfold insert
      by_cases here : first = key
      · subst here
        rw [if_pos rfl, List.lookup_cons, List.lookup_cons]
        by_cases same : other = first
        · rw [if_pos same, same, beq_self_eq_true]
        · rw [if_neg same, beq_eq_false_iff_ne.mpr same]
      · rw [if_neg here, List.lookup_cons, List.lookup_cons]
        by_cases same : other = first
        · subst same
          rw [beq_self_eq_true, if_neg here]
        · rw [beq_eq_false_iff_ne.mpr same]
          exact ih

theorem insert_insert (key : String) (value later : TomlValue) (table : TomlTable) :
    insert key later (insert key value table) = insert key later table := by
  induction table with
  | nil => exact if_pos rfl
  | cons entry rest ih =>
      obtain ⟨first, held⟩ := entry
      by_cases here : first = key
      · subst here
        show insert first later (if first = first then _ else _) = if first = first then _ else _
        rw [if_pos rfl, if_pos rfl]
        exact if_pos rfl
      · show insert key later (if first = key then _ else _) = if first = key then _ else _
        rw [if_neg here, if_neg here]
        show (if first = key then _ else _) = _
        rw [if_neg here, ih]

/-- Putting back what a key holds changes nothing. -/
theorem insert_lookup {key : String} {value : TomlValue} {table : TomlTable}
    (held : table.lookup key = some value) : insert key value table = table := by
  induction table with
  | nil => cases held
  | cons entry rest ih =>
      obtain ⟨first, found⟩ := entry
      rw [List.lookup_cons] at held
      by_cases here : first = key
      · subst here
        rw [beq_self_eq_true] at held
        cases held
        exact if_pos rfl
      · rw [beq_eq_false_iff_ne.mpr (Ne.symm here)] at held
        show (if first = key then _ else _) = _
        rw [if_neg here, ih held]

end TomlTable

/-- The structural shape of a value. Integers and floats are both numbers. -/
def shapeOf : TomlValue → String
  | .table _ => "table"
  | .array _ => "array"
  | .string _ => "string"
  | .integer _ | .float _ => "number"
  | .boolean _ => "boolean"
  | .datetime _ => "datetime"

inductive Presence
  | present | presentButEmpty

/-- Whether a supplied value has content. -/
def presenceOf (value : TomlValue) : Presence :=
  let empty := match value with
    | .string text => text.isEmpty
    | .array items => items.isEmpty
    | .table entries => entries.isEmpty
    | _ => false
  if empty then .presentButEmpty else .present

inductive SourceLayer
  | defaults
  | file (name : String)
  | environment

def SourceLayer.label : SourceLayer → String
  | defaults => "defaults"
  | file name => name
  | environment => "environment"

structure Attribution where
  layer : SourceLayer
  presence : Presence

/-- A key given two shapes, and the layers that gave them. -/
structure ConfigurationConflict where
  key : String
  firstLayer : String
  firstShape : String
  secondLayer : String
  secondShape : String

/-- The table being merged into, and the attributions and shapes so far. -/
structure Overlaying where
  into : TomlTable
  attribution : String → Option Attribution
  shapes : String → Option (SourceLayer × String)

/-- A key below a dotted path. -/
def dottedBelow (path key : String) : String :=
  if path.isEmpty then key else path ++ "." ++ key

/-- Refuses a path that has another shape already, or remembers its first. -/
def Overlaying.claim (state : Overlaying) (layer : SourceLayer) (path shape : String) :
    Except ConfigurationConflict Overlaying :=
  match state.shapes path with
  | some (firstLayer, firstShape) =>
      if firstShape ≠ shape then
        .error ⟨path, firstLayer.label, firstShape, layer.label, shape⟩
      else .ok state
  | none => .ok { state with shapes := Function.update state.shapes path (some (layer, shape)) }

/-- Writes a leaf, attributed to its layer. -/
def Overlaying.leaf (state : Overlaying) (layer : SourceLayer) (path key : String)
    (value : TomlValue) : Overlaying :=
  { state with
    into := TomlTable.insert key value state.into
    attribution := Function.update state.attribution path (some ⟨layer, presenceOf value⟩) }

/-- The table a key holds, a new one where it holds nothing. -/
def Overlaying.slot (state : Overlaying) (layer : SourceLayer) (path key : String) :
    Except ConfigurationConflict TomlTable :=
  match state.into.lookup key with
  | none => .ok []
  | some (.table existing) => .ok existing
  | some other => .error ⟨path, "an earlier layer", shapeOf other, layer.label, "table"⟩

mutual

/-- Writes one layer over the accumulator. -/
def overlay (layer : SourceLayer) (path : String) : TomlTable → Overlaying →
    Except ConfigurationConflict Overlaying
  | [], state => .ok state
  | entry :: rest, state => do
      let state ← overlayEntry layer path entry state
      overlay layer path rest state

def overlayEntry (layer : SourceLayer) (path : String) : String × TomlValue → Overlaying →
    Except ConfigurationConflict Overlaying
  | (key, value), state => do
      let path := dottedBelow path key
      let state ← state.claim layer path (shapeOf value)
      overlayValue layer path key value state

def overlayValue (layer : SourceLayer) (path key : String) : TomlValue → Overlaying →
    Except ConfigurationConflict Overlaying
  | .table inner, state => do
      let existing ← state.slot layer path key
      let below ← overlay layer path inner { state with into := existing }
      return { below with into := TomlTable.insert key (.table below.into) state.into }
  | other, state => .ok (state.leaf layer path key other)

end

mutual

/-- No table has a key twice. -/
def TomlTable.Keyed : TomlTable → Prop
  | [] => True
  | entry :: rest => KeyedEntry entry ∧ rest.lookup entry.1 = none ∧ TomlTable.Keyed rest

def KeyedEntry : String × TomlValue → Prop
  | (_, value) => TomlValue.Keyed value

def TomlValue.Keyed : TomlValue → Prop
  | .table inner => TomlTable.Keyed inner
  | _ => True

end

/-- One decoded source. -/
structure DecodedLayer where
  layer : SourceLayer
  table : TomlTable
  keyed : table.Keyed

/-- The merged tree, and the layer that won each leaf. -/
structure Merged where
  table : TomlTable
  attribution : String → Option Attribution

/-- Merges layers in precedence order, lowest first. -/
def mergeLayers (layers : List DecodedLayer) : Except ConfigurationConflict Merged := do
  let merged ← layers.foldlM (fun state layer => overlay layer.layer "" layer.table state)
    ⟨[], fun _ => none, fun _ => none⟩
  return ⟨merged.into, merged.attribution⟩

end Renvor
