import Mathlib.Data.List.Induction

/-! # Labelled transition systems

A system is a set of initial states and a labelled step relation. Runs carry
their labels, oldest first, so that a statement about a run may speak about
what happened on the way (`Foundation.TransitionSystem.Run`). Invariants are
proved once per step and lifted to every reachable state
(`Foundation.TransitionSystem.Invariant.reachable`). A guard on steps restricts
a system to the runs all of whose steps meet it
(`Foundation.TransitionSystem.restrict`), and two systems whose labels carry a
result are compared step by step
(`Foundation.TransitionSystem.Agreement.run`).
-/

namespace Foundation

universe u v w

/-- A labelled transition system. -/
structure TransitionSystem (State : Type u) (Label : Type v) where
  Initial : State → Prop
  Step : State → Label → State → Prop

namespace TransitionSystem

variable {State : Type u} {Label : Type v} (system : TransitionSystem State Label)

/-- The steps from a first state to a last one, with their labels in order. -/
inductive Run (first : State) : List Label → State → Prop
  | refl : Run first [] first
  | snoc {labels : List Label} {before after : State} {label : Label}
      (previous : Run first labels before) (step : system.Step before label after) :
      Run first (labels ++ [label]) after

/-- A state some run from an initial state ends in. -/
def Reachable (state : State) : Prop :=
  ∃ first labels, system.Initial first ∧ system.Run first labels state

variable {system}

theorem Run.single {before after : State} {label : Label}
    (step : system.Step before label after) : system.Run before [label] after :=
  .snoc .refl step

theorem Run.trans {first middle last : State} {front suffix : List Label}
    (left : system.Run first front middle) (right : system.Run middle suffix last) :
    system.Run first (front ++ suffix) last := by
  induction right with
  | refl => simpa using left
  | snoc _ step ih =>
      rw [← List.append_assoc]
      exact .snoc ih step

/-- A run ends with a step or is empty. -/
theorem Run.snoc_inv {first last : State} {labels : List Label} {label : Label}
    (run : system.Run first (labels ++ [label]) last) :
    ∃ before, system.Run first labels before ∧ system.Step before label last := by
  generalize whole : labels ++ [label] = all at run
  cases run with
  | refl => simp at whole
  | @snoc front before _ last previous step =>
      obtain ⟨rfl, same⟩ := List.append_inj' whole rfl
      cases List.singleton_inj.mp same
      exact ⟨before, previous, step⟩

/-- A run of one label is a step. -/
theorem Run.single_inv {first last : State} {label : Label}
    (run : system.Run first [label] last) : system.Step first label last := by
  have run : system.Run first ([] ++ [label]) last := run
  obtain ⟨before, previous, step⟩ := run.snoc_inv
  generalize empty : ([] : List Label) = labels at previous
  cases previous with
  | refl => exact step
  | snoc => simp at empty

/-- A run whose labels split passes through a state between the two parts. -/
theorem Run.append_inv {first last : State} {front suffix : List Label}
    (run : system.Run first (front ++ suffix) last) :
    ∃ middle, system.Run first front middle ∧ system.Run middle suffix last := by
  induction suffix using List.reverseRecOn generalizing last with
  | nil => exact ⟨last, by simpa using run, .refl⟩
  | append_singleton suffix label ih =>
      rw [← List.append_assoc] at run
      obtain ⟨before, previous, step⟩ := run.snoc_inv
      obtain ⟨middle, left, right⟩ := ih previous
      exact ⟨middle, left, .snoc right step⟩

/-- Where a label occurs, the run takes a step with it. -/
theorem Run.mem_inv {first last : State} {labels : List Label} {label : Label}
    (run : system.Run first labels last) (member : label ∈ labels) :
    ∃ front suffix before after, labels = front ++ label :: suffix ∧
      system.Run first front before ∧ system.Step before label after ∧
      system.Run after suffix last := by
  obtain ⟨front, suffix, rfl⟩ := List.append_of_mem member
  rw [List.append_cons] at run
  obtain ⟨after, left, right⟩ := run.append_inv
  obtain ⟨before, previous, step⟩ := left.snoc_inv
  exact ⟨front, suffix, before, after, rfl, previous, step, right⟩

theorem Reachable.initial {first : State} (start : system.Initial first) :
    system.Reachable first :=
  ⟨first, [], start, .refl⟩

theorem Reachable.run {first last : State} {labels : List Label}
    (reachable : system.Reachable first) (run : system.Run first labels last) :
    system.Reachable last := by
  obtain ⟨start, front, initial, previous⟩ := reachable
  exact ⟨start, front ++ labels, initial, previous.trans run⟩

theorem Reachable.step {before after : State} {label : Label}
    (reachable : system.Reachable before) (step : system.Step before label after) :
    system.Reachable after :=
  reachable.run (.single step)

/-- **Induction over reachable states.** -/
theorem Reachable.rec_on {predicate : State → Prop} {state : State}
    (reachable : system.Reachable state)
    (initial : ∀ state, system.Initial state → predicate state)
    (step : ∀ before label after, system.Reachable before → predicate before →
      system.Step before label after → predicate after) : predicate state := by
  obtain ⟨first, labels, start, run⟩ := reachable
  induction run with
  | refl => exact initial first start
  | snoc previous taken ih => exact step _ _ _ ⟨first, _, start, previous⟩ ih taken

variable (system) in
/-- A predicate no step leaves. -/
def Stable (predicate : State → Prop) : Prop :=
  ∀ before label after, predicate before → system.Step before label after → predicate after

theorem Stable.run {predicate : State → Prop} (stable : system.Stable predicate)
    {first last : State} {labels : List Label} (run : system.Run first labels last)
    (holds : predicate first) : predicate last := by
  induction run with
  | refl => exact holds
  | snoc _ step ih => exact stable _ _ _ ih step

variable (system) in
/-- A predicate that holds initially and that no step leaves. -/
structure Invariant (predicate : State → Prop) : Prop where
  initial : ∀ state, system.Initial state → predicate state
  step : system.Stable predicate

theorem Invariant.reachable {predicate : State → Prop} (invariant : system.Invariant predicate)
    {state : State} (reachable : system.Reachable state) : predicate state := by
  obtain ⟨first, _, start, run⟩ := reachable
  exact invariant.step.run run (invariant.initial first start)

/-! ## Runs whose steps all meet a guard -/

variable (system) in
/-- The system with the steps that meet a guard on the state before and the
label. -/
def restrict (guard : State → Label → Prop) : TransitionSystem State Label where
  Initial := system.Initial
  Step before label after := system.Step before label after ∧ guard before label

variable {guard : State → Label → Prop}

theorem Run.of_restrict {first last : State} {labels : List Label}
    (run : (system.restrict guard).Run first labels last) : system.Run first labels last := by
  induction run with
  | refl => exact .refl
  | snoc _ step ih => exact .snoc ih step.1

theorem Reachable.of_restrict {state : State}
    (reachable : (system.restrict guard).Reachable state) : system.Reachable state := by
  obtain ⟨first, labels, start, run⟩ := reachable
  exact ⟨first, labels, start, run.of_restrict⟩

/-- A run whose labels meet the guard in whatever state is a guarded run. -/
theorem Run.restrict_labels {first last : State} {labels : List Label}
    (run : system.Run first labels last) (meets : ∀ label ∈ labels, ∀ state, guard state label) :
    (system.restrict guard).Run first labels last := by
  induction run with
  | refl => exact .refl
  | @snoc labels _ _ label _ step ih =>
      have earlier := ih fun other member => meets other (List.mem_append_left _ member)
      exact .snoc earlier ⟨step, meets label (by simp) _⟩

/-! ## Systems of a step function -/

/-- The system whose steps a function takes. -/
def stepping (initial : State → Prop) (step : State → Label → Option State) :
    TransitionSystem State Label where
  Initial := initial
  Step before label after := step before label = some after

/-- What a step function does to a list of labels is a run. -/
theorem Run.of_foldlM {initial : State → Prop} {step : State → Label → Option State}
    {first last : State} {labels : List Label} (ran : labels.foldlM step first = some last) :
    (stepping initial step).Run first labels last := by
  induction labels using List.reverseRecOn generalizing last with
  | nil =>
      cases ran
      exact .refl
  | append_singleton labels label ih =>
      rw [List.foldlM_append] at ran
      obtain ⟨before, earlier, ends⟩ := Option.bind_eq_some_iff.mp ran
      rw [List.foldlM_cons] at ends
      obtain ⟨after, taken, same⟩ := Option.bind_eq_some_iff.mp ends
      cases same
      exact .snoc (ih earlier) taken

/-! ## Runs that remember what happened -/

variable (system) in
/-- The system with the labels so far in its states. -/
def recorded : TransitionSystem (List Label × State) Label where
  Initial state := state.1 = [] ∧ system.Initial state.2
  Step before label after := system.Step before.2 label after.2 ∧ after.1 = before.1 ++ [label]

theorem Run.recorded {first last : State} {labels : List Label}
    (run : (system.restrict guard).Run first labels last) (past : List Label) :
    (system.recorded.restrict fun state label => guard state.2 label).Run (past, first) labels
      (past ++ labels, last) := by
  induction run with
  | refl =>
      rw [List.append_nil]
      exact .refl
  | snoc _ step ih => exact .snoc ih ⟨⟨step.1, (List.append_assoc ..).symm⟩, step.2⟩

theorem Run.of_recorded {first last : List Label × State} {labels : List Label}
    (run : system.recorded.Run first labels last) :
    system.Run first.2 labels last.2 ∧ last.1 = first.1 ++ labels := by
  induction run with
  | refl => exact ⟨.refl, (List.append_nil _).symm⟩
  | snoc _ step ih =>
      refine ⟨.snoc ih.1 step.1, ?_⟩
      rw [step.2, ih.2, List.append_assoc]

/-! ## Refinement -/

section Refinement

variable {Abstract : Type w}

/-- Where the invariant holds, every step is a step of the abstract system with
the same label. -/
structure Refinement (concrete : TransitionSystem State Label)
    (abstract : TransitionSystem Abstract Label) (invariant : State → Prop)
    (abstraction : State → Abstract) : Prop where
  initial : ∀ state, concrete.Initial state →
    invariant state ∧ abstract.Initial (abstraction state)
  step : ∀ before label after, invariant before → concrete.Step before label after →
    invariant after ∧ abstract.Step (abstraction before) label (abstraction after)

variable {concrete : TransitionSystem State Label} {abstract : TransitionSystem Abstract Label}
  {invariant : State → Prop} {abstraction : State → Abstract}

/-- **A run refines to a run with the same labels.** -/
theorem Refinement.run (refines : Refinement concrete abstract invariant abstraction)
    {first last : State} {labels : List Label} (run : concrete.Run first labels last)
    (holds : invariant first) :
    invariant last ∧ abstract.Run (abstraction first) labels (abstraction last) := by
  induction run with
  | refl => exact ⟨holds, .refl⟩
  | snoc _ step ih =>
      obtain ⟨kept, previous⟩ := ih
      obtain ⟨after, taken⟩ := refines.step _ _ _ kept step
      exact ⟨after, .snoc previous taken⟩

theorem Refinement.reachable (refines : Refinement concrete abstract invariant abstraction)
    {state : State} (reachable : concrete.Reachable state) :
    invariant state ∧ abstract.Reachable (abstraction state) := by
  obtain ⟨first, labels, initial, run⟩ := reachable
  obtain ⟨holds, start⟩ := refines.initial first initial
  obtain ⟨kept, refined⟩ := refines.run run holds
  exact ⟨kept, _, labels, start, refined⟩

/-- A run from a reachable state refines to one from a reachable state. -/
theorem Refinement.run_reachable (refines : Refinement concrete abstract invariant abstraction)
    {first last : State} {labels : List Label} (reachable : concrete.Reachable first)
    (run : concrete.Run first labels last) :
    abstract.Run (abstraction first) labels (abstraction last) :=
  (refines.run run (refines.reachable reachable).1).2

theorem Refinement.step_reachable (refines : Refinement concrete abstract invariant abstraction)
    {before after : State} {label : Label} (reachable : concrete.Reachable before)
    (step : concrete.Step before label after) :
    abstract.Step (abstraction before) label (abstraction after) :=
  (refines.step before label after (refines.reachable reachable).1 step).2

/-- A guard on the abstract steps guards the concrete ones. -/
theorem Refinement.restrict (refines : Refinement concrete abstract invariant abstraction)
    (guard : Abstract → Label → Prop) :
    Refinement (concrete.restrict fun state => guard (abstraction state))
      (abstract.restrict guard) invariant abstraction where
  initial := refines.initial
  step before label after holds step :=
    have ⟨kept, taken⟩ := refines.step before label after holds step.1
    ⟨kept, taken, step.2⟩

end Refinement

/-! ## Two systems that answer alike -/

variable {Other : Type w} {Op : Type*} {Result : Type*}

/-- Related states of two systems with labels `(operation, result)` answer the
same operation with the same result and stay related. -/
def Agreement (left : TransitionSystem State (Op × Result))
    (right : TransitionSystem Other (Op × Result)) (related : State → Other → Prop) : Prop :=
  ∀ before other op first second after next, related before other →
    left.Step before (op, first) after → right.Step other (op, second) next →
      first = second ∧ related after next

/-- **Agreement along whole runs.** Two runs of the same operations from
related states give the same results and end in related states. -/
theorem Agreement.run {left : TransitionSystem State (Op × Result)}
    {right : TransitionSystem Other (Op × Result)} {related : State → Other → Prop}
    (agreement : Agreement left right related) {first last : State} {start stop : Other}
    {labels answers : List (Op × Result)} (initially : related first start)
    (run : left.Run first labels last) (other : right.Run start answers stop)
    (same : labels.map Prod.fst = answers.map Prod.fst) :
    labels = answers ∧ related last stop := by
  induction run generalizing answers stop with
  | refl =>
      have empty : answers = [] := List.map_eq_nil_iff.mp same.symm
      subst empty
      generalize nothing : ([] : List (Op × Result)) = none at other
      cases other with
      | refl => exact ⟨rfl, initially⟩
      | snoc => simp at nothing
  | @snoc labels before after label previous step ih =>
      induction answers using List.reverseRecOn with
      | nil => simp at same
      | append_singleton answers answer _ =>
          rw [List.map_append, List.map_append] at same
          obtain ⟨fronts, lasts⟩ := List.append_inj' same rfl
          obtain ⟨between, earlier, answered⟩ := other.snoc_inv
          obtain ⟨rfl, related⟩ := ih earlier fronts
          rcases label with ⟨op, first⟩
          rcases answer with ⟨asked, second⟩
          have asked_eq : op = asked := List.singleton_inj.mp lasts
          subst asked_eq
          obtain ⟨rfl, onward⟩ := agreement _ _ _ _ _ _ _ related step answered
          exact ⟨rfl, onward⟩

end TransitionSystem

end Foundation
