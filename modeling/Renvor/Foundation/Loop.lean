import Mathlib.Tactic.TypeStar

/-! # Loops with a bound on their rounds

A round goes on with another state or stops with a result. What every round
preserves, and every stop turns into a fact about the result, holds of the
result of the loop (`Foundation.loop_of_invariant`).
-/

namespace Foundation

/-- How a round ends. -/
inductive Turn (State Result : Type*)
  | again (state : State)
  | stop (result : Result)

variable {State Result : Type*}

/-- Rounds counted from the one given, as many as there are at most. -/
def loop (turn : Nat → State → Turn State Result) (finish : State → Result) :
    Nat → Nat → State → Result
  | 0, _, state => finish state
  | rounds + 1, round, state => match turn round state with
      | .again state => loop turn finish rounds (round + 1) state
      | .stop result => result

variable {turn : Nat → State → Turn State Result} {finish : State → Result}

theorem loop_of_invariant (holds : Nat → State → Prop) (ends : Result → Prop) {rounds round : Nat}
    {state : State} (begins : holds round state)
    (goes : ∀ later state, round ≤ later → later < round + rounds → holds later state →
      match turn later state with
      | .again state => holds (later + 1) state
      | .stop result => ends result)
    (finishes : ∀ state, holds (round + rounds) state → ends (finish state)) :
    ends (loop turn finish rounds round state) := by
  induction rounds generalizing round state with
  | zero => exact finishes state begins
  | succ rounds ih =>
      have here := goes round state (Nat.le_refl _) (by omega) begins
      unfold loop
      split at here
      next next same =>
        refine ih here (fun later state after bound => goes later state (by omega) (by omega)) ?_
        intro state holds
        exact finishes state (by rwa [Nat.add_right_comm, Nat.add_assoc] at holds)
      next result same => exact here

end Foundation
