import Mathlib.Data.List.Basic

/-! # Machines that answer

A machine answers each input it is given. Inputs that leave a relation between
two of its states in place can be taken out of a run, and the others are
answered alike (`Foundation.Machine.log_erased`).
-/

namespace Foundation

/-- A machine that answers every input. -/
structure Machine (State Input Answer : Type) where
  step : State → Input → State × Answer

namespace Machine

variable {State Input Answer : Type} (machine : Machine State Input Answer)

/-- The inputs of a run with their answers. -/
def log : State → List Input → List (Input × Answer)
  | _, [] => []
  | state, input :: rest =>
      (input, (machine.step state input).2) :: log (machine.step state input).1 rest

/-- A relation between the states of two runs, given what the first has answered
so far: inputs that stay in both runs are answered alike, and the others are taken
out of the second. -/
structure Erasing (machine : Machine State Input Answer) (erased : Input → Bool)
    (order : Input × Answer → Input × Answer → Prop)
    (alike : List (Input × Answer) → State → State → Prop) : Prop where
  kept : ∀ past state other input, alike past state other → erased input = false →
    (∀ entry ∈ past, order entry (input, (machine.step state input).2)) →
    (machine.step state input).2 = (machine.step other input).2 ∧
      alike (past ++ [(input, (machine.step state input).2)]) (machine.step state input).1
        (machine.step other input).1
  gone : ∀ past state other input, alike past state other → erased input = true →
    alike (past ++ [(input, (machine.step state input).2)]) (machine.step state input).1 other

variable {machine} {erased : Input → Bool} {order : Input × Answer → Input × Answer → Prop}
  {alike : List (Input × Answer) → State → State → Prop}

/-- **Taking inputs out changes no other answer.** -/
theorem log_erased (erasing : machine.Erasing erased order alike) {past : List (Input × Answer)}
    {state other : State} {inputs : List Input} (related : alike past state other)
    (ordered : (past ++ machine.log state inputs).Pairwise order) :
    (machine.log state inputs).filter (fun entry => !erased entry.1) =
      machine.log other (inputs.filter fun input => !erased input) := by
  induction inputs generalizing past state other with
  | nil => rfl
  | cons input rest ih =>
      have along : ((past ++ [(input, (machine.step state input).2)]) ++
          machine.log (machine.step state input).1 rest).Pairwise order := by
        rw [List.append_assoc]
        exact ordered
      cases gone : erased input with
      | true =>
          have next := ih (erasing.gone past state other input related gone) along
          simpa only [log, List.filter_cons, gone, Bool.not_true, Bool.false_eq_true, if_false]
            using next
      | false =>
          have behind : ∀ entry ∈ past, order entry (input, (machine.step state input).2) := by
            intro entry member
            exact (List.pairwise_append.mp ordered).2.2 entry member _ List.mem_cons_self
          obtain ⟨same, after⟩ := erasing.kept past state other input related gone behind
          have next := ih after along
          simp only [log, List.filter_cons, gone, Bool.not_false, if_true]
          rw [next, same]

/-- The state after a run. -/
def run : State → List Input → State
  | state, [] => state
  | state, input :: rest => run (machine.step state input).1 rest

theorem run_append (state : State) (earlier later : List Input) :
    machine.run state (earlier ++ later) = machine.run (machine.run state earlier) later := by
  induction earlier generalizing state with
  | nil => rfl
  | cons input rest ih => exact ih _

/-- A machine mirrors another: in states that are alike they give one answer exactly
to the inputs that are clear, and these keep the states alike. -/
structure Mirroring {Other : Type} (machine : Machine State Input Answer)
    (mirrored : Machine Other Input Answer) (alike : List Input → State → Other → Prop)
    (clear : List Input → Other → Input → Prop) : Prop where
  answers : ∀ past state other input, alike past state other →
    ((machine.step state input).2 = (mirrored.step other input).2 ↔ clear past other input)
  kept : ∀ past state other input, alike past state other → clear past other input →
    alike (past ++ [input]) (machine.step state input).1 (mirrored.step other input).1

/-- **Two machines answer a run alike exactly when all its inputs are clear.** -/
theorem log_eq_iff {Other : Type} {mirrored : Machine Other Input Answer}
    {alike : List Input → State → Other → Prop} {clear : List Input → Other → Input → Prop}
    (mirroring : machine.Mirroring mirrored alike clear) {past : List Input} {state : State}
    {other : Other} (related : alike past state other) (inputs : List Input) :
    machine.log state inputs = mirrored.log other inputs ↔
      ∀ earlier input later, inputs = earlier ++ input :: later →
        clear (past ++ earlier) (mirrored.run other earlier) input := by
  induction inputs generalizing past state other with
  | nil =>
      refine iff_of_true rfl fun earlier input later split => ?_
      exact (List.append_ne_nil_of_right_ne_nil earlier (List.cons_ne_nil input later) split.symm).elim
  | cons input rest ih =>
      have here := mirroring.answers past state other input related
      constructor
      · intro same earlier asked later split
        obtain ⟨first, after⟩ := List.cons.inj same
        have met := here.mp (Prod.ext_iff.mp first).2
        cases earlier with
        | nil =>
            obtain ⟨rfl, rfl⟩ := List.cons.inj split
            rw [List.append_nil]
            exact met
        | cons begun earlier =>
            obtain ⟨rfl, tail⟩ := List.cons.inj split
            have next := (ih (mirroring.kept past state other input related met)).mp after
            rw [List.append_cons]
            exact next earlier asked later tail
      · intro clear
        have met := clear [] input rest rfl
        rw [List.append_nil] at met
        have after := (ih (mirroring.kept past state other input related met)).mpr ?_
        · rw [log, log, after, here.mpr met]
        · intro earlier asked later split
          rw [← List.append_cons]
          exact clear (input :: earlier) asked later (congrArg (input :: ·) split)

end Machine

/-! ## What holds of every step -/

/-- Each input is met in a state where it may be. -/
def Along {State Input : Type*} (next : State → Input → State) (holds : State → Input → Prop) :
    State → List Input → Prop
  | _, [] => True
  | state, input :: rest => holds state input ∧ Along next holds (next state input) rest

/-- What is the same in every state that the steps of one kind lead to is the same along
a run. -/
theorem along_iff {State Input : Type*} {next : State → Input → State}
    {holds other : State → Input → Prop} (invariant : State → Prop)
    (same : ∀ state input, invariant state → (holds state input ↔ other state input))
    (kept : ∀ state input, invariant state → other state input → invariant (next state input))
    {state : State} {inputs : List Input} (begins : invariant state) :
    Along next holds state inputs ↔ Along next other state inputs := by
  induction inputs generalizing state with
  | nil => exact Iff.rfl
  | cons input rest ih =>
      constructor
      · rintro ⟨here, later⟩
        have met := (same state input begins).mp here
        exact ⟨met, (ih (kept state input begins met)).mp later⟩
      · rintro ⟨met, later⟩
        exact ⟨(same state input begins).mpr met, (ih (kept state input begins met)).mpr later⟩

end Foundation
