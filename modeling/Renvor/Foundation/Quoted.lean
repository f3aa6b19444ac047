import Mathlib.Tactic.Common

/-! # Quoted names, and lists with a separator

A name between quotes, its own quotes doubled, is read back whatever comes after it but a
quote (`Foundation.Quoted.read_write`). A list is read back where each of its items is,
before a separator and before what ends the list (`Foundation.Quoted.readAll_write`).
-/

namespace Foundation.Quoted

universe u

/-- A name between quotes, its own quotes doubled. -/
def write (quote : Char) (name : List Char) : List Char :=
  quote :: name.flatMap (fun character => if character = quote then [quote, quote] else [character])
    ++ [quote]

/-- Reads up to a quote that is not doubled. -/
def readBody (quote : Char) : List Char → Option (List Char × List Char)
  | [] => none
  | [last] => if last = quote then some ([], []) else none
  | first :: second :: rest =>
      if first = quote then
        if second = quote then (readBody quote rest).map fun (name, rest) => (quote :: name, rest)
        else some ([], second :: rest)
      else (readBody quote (second :: rest)).map fun (name, rest) => (first :: name, rest)

/-- Reads a name between quotes, and leaves the rest. -/
def read (quote : Char) : List Char → Option (List Char × List Char)
  | first :: rest => if first = quote then readBody quote rest else none
  | [] => none

/-- Reads a word, and leaves the rest. -/
def readWord (word text : List Char) : Option (List Char) :=
  if word.isPrefixOf text then some (text.drop word.length) else none

@[simp] theorem readWord_append (word rest : List Char) :
    readWord word (word ++ rest) = some rest := by
  rw [readWord, if_pos (List.isPrefixOf_iff_prefix.mpr (List.prefix_append word rest)),
    List.drop_left' rfl]

theorem readWord_none {word text : List Char} (apart : ¬word <+: text) :
    readWord word text = none := if_neg (mt List.isPrefixOf_iff_prefix.mp apart)

/-- The closing quote ends the name. -/
theorem readBody_quote {quote : Char} {rest : List Char} (apart : rest.head? ≠ some quote) :
    readBody quote (quote :: rest) = some ([], rest) := by
  cases rest with
  | nil => rw [readBody, if_pos rfl]
  | cons second rest =>
      have other : second ≠ quote := fun same => apart (congrArg some same)
      rw [readBody, if_pos rfl, if_neg other]

/-- A character that is no quote is one of the name. -/
theorem readBody_cons {quote character : Char} (other : character ≠ quote) (text : List Char) :
    readBody quote (character :: text) =
      (readBody quote text).map fun (name, rest) => (character :: name, rest) := by
  cases text with
  | nil => simp [readBody, other]
  | cons second rest => rw [readBody, if_neg other]

/-- **A quoted name is read back.** -/
theorem read_write {quote : Char} (name : List Char) {rest : List Char}
    (apart : rest.head? ≠ some quote) : read quote (write quote name ++ rest) = some (name, rest) := by
  rw [write, List.cons_append, List.cons_append, read, if_pos rfl, List.append_assoc]
  induction name with
  | nil => exact readBody_quote apart
  | cons character name ih =>
      rw [List.flatMap_cons, List.append_assoc]
      by_cases same : character = quote
      · rw [if_pos same, List.cons_append, List.cons_append, List.nil_append, readBody, if_pos rfl,
          if_pos rfl, ih, same]
        rfl
      · rw [if_neg same, List.singleton_append, readBody_cons same, ih]
        rfl

/-! ## Lists -/

section Lists

variable {Item : Type u} (item : List Char → Option (Item × List Char)) (separator : List Char)

/-- Reads items up to the first that no separator follows. -/
def readList : Nat → List Char → Option (List Item × List Char)
  | 0, _ => none
  | fuel + 1, text => do
      let (value, rest) ← item text
      match readWord separator rest with
      | none => return ([value], rest)
      | some more =>
          let (values, rest) ← readList fuel more
          return (value :: values, rest)

/-- Reads the items that a text begins with. -/
def readAll (text : List Char) : Option (List Item × List Char) :=
  readList item separator text.length text

/-- The first item, and the others each with a separator before it. -/
theorem intercalate_cons (first : List Char) (others : List (List Char)) :
    separator.intercalate (first :: others) = first ++ others.flatMap (separator ++ ·) := by
  induction others generalizing first with
  | nil => simp [List.intercalate]
  | cons second others ih =>
      have split : separator.intercalate (first :: second :: others) =
          first ++ (separator ++ separator.intercalate (second :: others)) := by
        simp [List.intercalate]
      rw [split, ih, List.flatMap_cons, List.append_assoc]

variable {item separator} {write : Item → List Char} (ends : List Char → Prop)

theorem readList_write (reads : ∀ value rest, ends rest →
      item (write value ++ rest) = some (value, rest))
    (separates : ∀ rest, ends (separator ++ rest)) {after : List Char} (last : ends after)
    (apart : ¬separator <+: after) (first : Item) (others : List Item) {fuel : Nat}
    (enough : others.length < fuel) :
    readList item separator fuel (separator.intercalate ((first :: others).map write) ++ after) =
      some (first :: others, after) := by
  induction others generalizing first fuel with
  | nil =>
      obtain ⟨fuel, rfl⟩ := Nat.exists_eq_add_one.mpr enough
      have here := reads first after last
      rw [List.map_singleton, intercalate_cons, List.flatMap_nil, List.append_nil, readList, here]
      simp only [Option.bind_eq_bind, Option.bind_some]
      rw [readWord_none apart]
      rfl
  | cons second others ih =>
      obtain ⟨fuel, rfl⟩ := Nat.exists_eq_add_one.mpr (Nat.zero_lt_of_lt enough)
      have later := ih second (Nat.lt_of_succ_lt_succ enough)
      have here := reads first (separator ++ (separator.intercalate ((second :: others).map write) ++
        after)) (separates _)
      have split : separator.intercalate ((first :: second :: others).map write) ++ after =
          write first ++ (separator ++ (separator.intercalate ((second :: others).map write) ++
            after)) := by
        rw [List.map_cons, List.map_cons, intercalate_cons, List.flatMap_cons, ← intercalate_cons]
        simp [intercalate_cons]
      rw [split, readList, here]
      simp only [Option.bind_eq_bind, Option.bind_some]
      rw [readWord_append]
      simp only [later]
      rfl

/-- **A list that is not empty is read back.** -/
theorem readAll_write (reads : ∀ value rest, ends rest →
      item (write value ++ rest) = some (value, rest))
    (separates : ∀ rest, ends (separator ++ rest)) {after : List Char} (last : ends after)
    (apart : ¬separator <+: after) (written : ∀ value, write value ≠ []) {values : List Item}
    (some' : values ≠ []) :
    readAll item separator (separator.intercalate (values.map write) ++ after) =
      some (values, after) := by
  cases values with
  | nil => exact absurd rfl some'
  | cons first others =>
      refine readList_write ends reads separates last apart first others ?_
      have each : ∀ others : List Item,
          others.length ≤ ((others.map write).flatMap (separator ++ ·)).length := by
        intro others
        induction others with
        | nil => exact Nat.le_refl 0
        | cons value others ih =>
            have one := List.length_pos_iff.mpr (written value)
            rw [List.map_cons, List.flatMap_cons, List.length_append, List.length_append,
              List.length_cons]
            omega
      have one := List.length_pos_iff.mpr (written first)
      have rest := each others
      rw [List.map_cons, intercalate_cons, List.length_append, List.length_append]
      omega

end Lists

end Foundation.Quoted
