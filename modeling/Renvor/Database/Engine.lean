import Mathlib.Tactic.Common

/-! # How an engine compares texts

PostgreSQL compares a `VARCHAR` byte by byte. MySQL compares it under its
collation, where texts that differ may be the same.
-/

namespace Renvor

/-- How an engine compares two texts. -/
structure SqlEngine where
  same : String → String → Bool

/-- The engine that compares texts byte by byte. -/
def SqlEngine.bytewise : SqlEngine := ⟨fun left right => left = right⟩

/-- What a collation promises: an equivalence. -/
structure SqlEngine.Collates (engine : SqlEngine) : Prop where
  refl : ∀ text, engine.same text text = true
  symm : ∀ {left right}, engine.same left right = true → engine.same right left = true
  trans : ∀ {first second third}, engine.same first second = true →
    engine.same second third = true → engine.same first third = true

/-- The engine that compares ASCII letters without their case. -/
def SqlEngine.caseless : SqlEngine :=
  ⟨fun left right => left.toList.map Char.toLower = right.toList.map Char.toLower⟩

theorem SqlEngine.caseless_collates : caseless.Collates where
  refl _ := decide_eq_true rfl
  symm same := decide_eq_true (of_decide_eq_true same).symm
  trans first second := decide_eq_true ((of_decide_eq_true first).trans (of_decide_eq_true second))

end Renvor
