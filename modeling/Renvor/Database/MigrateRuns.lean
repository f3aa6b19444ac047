import Renvor.Database.Migrate

/-! # What the reports of migration runs say

Every version is applied by at most one run, and that run's report says so. A run whose
first read is answered reports as applied what was not in the table at that read, be it
applied by the run itself or by another one since (`Renvor.Migrate.reported`).
-/

namespace Renvor.Migrate

open Foundation

variable {Run : Type*} {migrations : Run → List Migration} {start : List Int}
  {state after : State Run} {run other : Run}

/-- A run that has read the table for the first time. -/
structure Begun (start : List Int) (state : State Run) (run : Run) : Prop where
  started : ∀ version ∈ start, version ∈ state.recorded run
  seen : ∀ version ∈ state.recorded run, version ∈ state.applied
  own : ∀ version, state.applier version = some run → version ∉ state.recorded run

/-- What a run read of the table as it was. -/
structure Reads (state : State Run) (run : Run) (before : List Int) : Prop where
  sound : ∀ version ∈ before, version ∈ state.recorded run
  complete : state.answered run = true → ∀ version ∈ state.recorded run, version ∈ before

/-- Everything the run is there to apply is applied. -/
def Complete (migrations : Run → List Migration) (state : State Run) (run : Run) : Prop :=
  ∀ migration ∈ forward (migrations run), migration.version ∈ state.applied

variable (migrations start) in
/-- What is known of a run at each stage it can be at. -/
def AtStage (state : State Run) (run : Run) : Stage → Prop
  | .idle => ∀ version, state.applier version ≠ some run
  | .waiting before => Begun start state run ∧ Reads state run before
  | .migrating before pending => Begun start state run ∧ Reads state run before ∧
      state.holder = some run ∧ ∀ migration ∈ forward (migrations run),
        migration.version ∈ state.applied ∨ migration ∈ pending
  | .released before => Begun start state run ∧ Reads state run before ∧
      Complete migrations state run
  | .reported answer => Begun start state run ∧ Complete migrations state run ∧
      ∃ before later elapsed, Reads state run before ∧
        answer = report (migrations run) before later elapsed
  | .failed => True

variable (migrations start) in
/-- What holds of the table and all runs at any time. -/
structure Invariant (state : State Run) : Prop where
  once : state.applied.Nodup
  kept : ∀ version ∈ start, version ∈ state.applied
  origin : ∀ version ∈ state.applied, version ∈ start ∨ ∃ run, state.applier version = some run
  appliers : ∀ version run, state.applier version = some run → version ∈ state.applied
  runs : ∀ run, AtStage migrations start state run (state.stage run)

/-- What the steps of other runs leave of a run. -/
structure Extends (state after : State Run) (run : Run) : Prop where
  recorded : after.recorded run = state.recorded run
  answered : after.answered run = state.answered run
  grows : ∀ version ∈ state.applied, version ∈ after.applied
  applier : ∀ version, after.applier version = some run → state.applier version = some run
  holder : state.holder = some run → after.holder = some run

/-- What a run began with stays as others go on. -/
theorem Begun.extend (begun : Begun start state run) (extends' : Extends state after run) :
    Begun start after run where
  started version member := by
    rw [extends'.recorded]
    exact begun.started version member
  seen version member := by
    rw [extends'.recorded] at member
    exact extends'.grows version (begun.seen version member)
  own version applied := by
    rw [extends'.recorded]
    exact begun.own version (extends'.applier version applied)

/-- What a run read at its beginning stays as it was while others go on. -/
theorem Reads.extend {before : List Int} (reads : Reads state run before)
    (extends' : Extends state after run) : Reads after run before where
  sound := by
    rw [extends'.recorded]
    exact reads.sound
  complete := by
    rw [extends'.recorded, extends'.answered]
    exact reads.complete

/-- The steps of other runs leave a run where it is. -/
theorem AtStage.extend {stage : Stage} (holds : AtStage migrations start state run stage)
    (extends' : Extends state after run) : AtStage migrations start after run stage := by
  cases stage with
  | idle => exact fun version applied => holds version (extends'.applier version applied)
  | waiting before => exact ⟨holds.1.extend extends', holds.2.extend extends'⟩
  | migrating before pending =>
      obtain ⟨begun, reads, held, left⟩ := holds
      refine ⟨begun.extend extends', reads.extend extends', extends'.holder held, ?_⟩
      intro migration member
      exact (left migration member).imp_left (extends'.grows _)
  | released before =>
      obtain ⟨begun, reads, complete⟩ := holds
      exact ⟨begun.extend extends', reads.extend extends',
        fun migration member => extends'.grows _ (complete migration member)⟩
  | reported answer =>
      obtain ⟨begun, complete, before, later, elapsed, reads, same⟩ := holds
      exact ⟨begun.extend extends',
        fun migration member => extends'.grows _ (complete migration member),
        before, later, elapsed, reads.extend extends', same⟩
  | failed => trivial

/-- At most one run holds the lock. -/
theorem Invariant.exclusive (invariant : Invariant migrations start state)
    {before before' : List Int} {pending pending' : List Migration}
    (first : state.stage run = .migrating before pending)
    (second : state.stage other = .migrating before' pending') : run = other := by
  have held := invariant.runs run
  have held' := invariant.runs other
  rw [first] at held
  rw [second] at held'
  exact Option.some.inj (held.2.2.1.symm.trans held'.2.2.1)

/-- A reading that is answered lists just the applied versions. -/
theorem mem_select {applied : List Int} {version : Int} :
    version ∈ select applied true ↔ version ∈ applied := by
  rw [select, if_pos rfl]
  exact (List.perm_insertionSort _ _).mem_iff

/-- At the beginning no run has applied anything. -/
theorem Invariant.initial (distinct : start.Nodup) :
    Invariant migrations start (State.start start) where
  once := distinct
  kept _ member := member
  origin _ member := .inl member
  appliers _ _ applied := nomatch applied
  runs _ _ applied := nomatch applied

variable [DecidableEq Run]

/-- A run that moves, the others where they were. -/
theorem runs_of_update {stage : Stage}
    (stages : after.stage = Function.update state.stage run stage)
    (invariant : Invariant migrations start state)
    (others : ∀ other, other ≠ run → Extends state after other)
    (moved : AtStage migrations start after run stage) (other : Run) :
    AtStage migrations start after other (after.stage other) := by
  by_cases same : other = run
  · rw [same, stages, Function.update_self]
    exact moved
  · rw [stages, Function.update_of_ne same]
    exact (invariant.runs other).extend (others other same)

variable {answered : Bool} {elapsed : Nat}

/-- A first reading keeps the invariant, answered or not. -/
theorem Invariant.read (invariant : Invariant migrations start state)
    (taken : step migrations state (.read run answered) = some after) :
    Invariant migrations start after := by
  simp only [step] at taken
  split at taken
  next idle =>
    cases taken
    have fresh := invariant.runs run
    rw [idle] at fresh
    refine ⟨invariant.once, invariant.kept, invariant.origin, invariant.appliers,
      runs_of_update rfl invariant ?_ ⟨⟨?_, ?_, ?_⟩, ⟨?_, ?_⟩⟩⟩
    · intro other different
      exact ⟨Function.update_of_ne different _ _, Function.update_of_ne different _ _,
        fun _ member => member, fun _ applied => applied, fun held => held⟩
    all_goals simp only [Function.update_self]
    · exact invariant.kept
    · exact fun _ member => member
    · intro version applied
      exact (fresh version applied).elim
    · intro version member
      cases answered with
      | true => exact mem_select.mp member
      | false => exact nomatch member
    · rintro rfl version member
      exact mem_select.mpr member
  next => cases taken

/-- Taking the lock keeps the invariant: what is pending is what is not in the table. -/
theorem Invariant.lock (invariant : Invariant migrations start state)
    (taken : step migrations state (.lock run) = some after) :
    Invariant migrations start after := by
  simp only [step] at taken
  split at taken
  next before waiting free =>
    cases taken
    have begun := invariant.runs run
    rw [waiting] at begun
    refine ⟨invariant.once, invariant.kept, invariant.origin, invariant.appliers,
      runs_of_update rfl invariant ?_ ⟨?_, ?_, rfl, ?_⟩⟩
    · intro other _
      refine ⟨rfl, rfl, fun _ member => member, fun _ applied => applied, fun held => ?_⟩
      exact nomatch free.symm.trans held
    · exact ⟨begun.1.started, begun.1.seen, begun.1.own⟩
    · exact ⟨begun.2.sound, begun.2.complete⟩
    · intro migration member
      by_cases applied : migration.version ∈ state.applied
      · exact .inl applied
      · exact .inr (List.mem_filter.mpr ⟨member, by simp [applied]⟩)
  next => cases taken

/-- Applying a version keeps the invariant, since only the holder of the lock applies. -/
theorem Invariant.apply (invariant : Invariant migrations start state)
    (taken : step migrations state (.apply run) = some after) :
    Invariant migrations start after := by
  simp only [step] at taken
  split at taken
  next before migration pending migrating =>
    split at taken
    next => cases taken
    next absent =>
      cases taken
      have held := invariant.runs run
      rw [migrating] at held
      obtain ⟨begun, reads, holder, left⟩ := held
      have grows : ∀ version ∈ state.applied, version ∈ state.applied ++ [migration.version] :=
        fun version member => List.mem_append_left _ member
      have elsewhere (version : Int) (different : version ≠ migration.version) :
          Function.update state.applier migration.version (some run) version =
            state.applier version := Function.update_of_ne different _ _
      have here : Function.update state.applier migration.version (some run) migration.version =
          some run := Function.update_self ..
      refine ⟨?_, fun version member => grows version (invariant.kept version member), ?_, ?_,
        runs_of_update rfl invariant ?_ ⟨⟨begun.started, ?_, ?_⟩, ?_, holder, ?_⟩⟩
      · exact List.nodup_append.mpr ⟨invariant.once, List.nodup_singleton _, by
          intro version member other same
          rw [List.mem_singleton.mp same]
          rintro rfl
          exact absent member⟩
      · intro version member
        by_cases same : version = migration.version
        · exact .inr ⟨run, by rw [same]; exact here⟩
        · have earlier : version ∈ state.applied := by simpa [same] using member
          refine (invariant.origin version earlier).imp_right ?_
          rintro ⟨applier, applied⟩
          exact ⟨applier, (elsewhere version same).trans applied⟩
      · intro version applier applied
        by_cases same : version = migration.version
        · exact List.mem_append_right _ (List.mem_singleton.mpr same)
        · exact grows version
            (invariant.appliers version applier ((elsewhere version same).symm.trans applied))
      · intro other different
        refine ⟨rfl, rfl, grows, fun version applied => ?_, fun held => held⟩
        by_cases same : version = migration.version
        · rw [same] at applied
          exact (different (Option.some.inj (here.symm.trans applied)).symm).elim
        · exact (elsewhere version same).symm.trans applied
      · exact fun version member => grows version (begun.seen version member)
      · intro version applied member
        by_cases same : version = migration.version
        · exact absent (begun.seen _ (same ▸ member))
        · exact begun.own version ((elsewhere version same).symm.trans applied) member
      · exact ⟨reads.sound, reads.complete⟩
      · intro other member
        cases left other member with
        | inl applied => exact .inl (grows _ applied)
        | inr waiting =>
            cases List.mem_cons.mp waiting with
            | inl same =>
                rw [same]
                exact .inl (List.mem_append_right _ (List.mem_singleton.mpr rfl))
            | inr later => exact .inr later
  next => cases taken

/-- A run that leaves the lock leaves it to no other. -/
theorem Invariant.leave {before : List Int} {pending : List Migration} {stage : Stage}
    (invariant : Invariant migrations start state)
    (migrating : state.stage run = .migrating before pending)
    (moved : AtStage migrations start { state with holder := none } run stage) :
    Invariant migrations start { state with
      holder := none
      stage := Function.update state.stage run stage } := by
  have held := invariant.runs run
  rw [migrating] at held
  refine ⟨invariant.once, invariant.kept, invariant.origin, invariant.appliers,
    runs_of_update rfl invariant ?_ ?_⟩
  · intro other different
    refine ⟨rfl, rfl, fun _ member => member, fun _ applied => applied, fun others => ?_⟩
    exact (different (Option.some.inj (others.symm.trans held.2.2.1))).elim
  · exact moved.extend ⟨rfl, rfl, fun _ member => member, fun _ applied => applied,
      fun held => nomatch held⟩

/-- Releasing the lock keeps the invariant: nothing is pending any more. -/
theorem Invariant.unlock (invariant : Invariant migrations start state)
    (taken : step migrations state (.unlock run) = some after) :
    Invariant migrations start after := by
  simp only [step] at taken
  split at taken
  next before migrating =>
    cases taken
    have held := invariant.runs run
    rw [migrating] at held
    obtain ⟨begun, reads, _, left⟩ := held
    refine invariant.leave migrating ⟨⟨begun.started, begun.seen, begun.own⟩,
      ⟨reads.sound, reads.complete⟩, fun migration member => ?_⟩
    exact (left migration member).resolve_right fun pending => nomatch pending
  next => cases taken

/-- Reporting keeps the invariant. -/
theorem Invariant.report (invariant : Invariant migrations start state)
    (taken : step migrations state (.report run answered elapsed) = some after) :
    Invariant migrations start after := by
  simp only [step] at taken
  split at taken
  next before released =>
    cases taken
    have held := invariant.runs run
    rw [released] at held
    obtain ⟨begun, reads, complete⟩ := held
    refine ⟨invariant.once, invariant.kept, invariant.origin, invariant.appliers,
      runs_of_update rfl invariant ?_ ⟨?_, complete, before, _, elapsed, ?_, rfl⟩⟩
    · exact fun other _ => ⟨rfl, rfl, fun _ member => member, fun _ applied => applied,
        fun held => held⟩
    · exact ⟨begun.started, begun.seen, begun.own⟩
    · exact ⟨reads.sound, reads.complete⟩
  next => cases taken

/-- A run that fails keeps the invariant, and gives the lock back. -/
theorem Invariant.fail (invariant : Invariant migrations start state)
    (taken : step migrations state (.fail run) = some after) :
    Invariant migrations start after := by
  simp only [step] at taken
  split at taken
  next before waiting =>
    cases taken
    exact ⟨invariant.once, invariant.kept, invariant.origin, invariant.appliers,
      runs_of_update rfl invariant (fun other _ => ⟨rfl, rfl, fun _ member => member,
        fun _ applied => applied, fun held => held⟩) trivial⟩
  next before pending migrating =>
    cases taken
    exact invariant.leave migrating trivial
  next => cases taken

/-- **The invariant holds in every state that is reached.** -/
theorem invariant_reachable (distinct : start.Nodup)
    (reachable : (system migrations start).Reachable state) :
    Invariant migrations start state := by
  refine TransitionSystem.Invariant.reachable ⟨?_, ?_⟩ reachable
  · rintro _ rfl
    exact .initial distinct
  · intro before label after invariant taken
    cases label with
    | read run answered => exact invariant.read taken
    | lock run => exact invariant.lock taken
    | apply run => exact invariant.apply taken
    | unlock run => exact invariant.unlock taken
    | report run answered elapsed => exact invariant.report taken
    | fail run => exact invariant.fail taken

/-- A version is reported as applied exactly where the first reading did not list it. -/
theorem outcome_applied {before : List Int} {version : Int} :
    outcome before version = .applied ↔ version ∉ before := by
  unfold outcome
  split
  next held => simpa using held
  next absent => simpa using absent

/-- **What the report of a run says.** No version is applied twice. The report names the
versions of the run in order, and the version that the run applied as applied. If its
first read was answered, or there was nothing for it to find, it names as applied just the
versions that were not recorded then, each of which was applied since by the run or by
another. -/
theorem reported {answer : MigrationReport} (distinct : start.Nodup)
    (reachable : (system migrations start).Reachable state)
    (finished : state.stage run = .reported answer) :
    state.applied.Nodup ∧ answer.steps.map (·.version) = versions (migrations run) ∧
      ∀ step ∈ answer.steps,
        (state.applier step.version = some run → step.outcome = .applied) ∧
        (state.answered run = true ∨ state.recorded run = [] →
          (step.outcome = .applied ↔ step.version ∉ state.recorded run) ∧
          (step.outcome = .applied → ∃ applier, state.applier step.version = some applier)) := by
  have invariant := invariant_reachable distinct reachable
  have held := invariant.runs run
  rw [finished] at held
  obtain ⟨begun, complete, before, later, elapsed, reads, rfl⟩ := held
  refine ⟨invariant.once, by simp [report, versions], ?_⟩
  intro step member
  obtain ⟨migration, listed, rfl⟩ := List.mem_map.mp member
  have exact' (known : state.answered run = true ∨ state.recorded run = []) :
      outcome before migration.version = .applied ↔
        migration.version ∉ state.recorded run := by
    refine outcome_applied.trans (not_congr ⟨reads.sound _, fun recorded => ?_⟩)
    obtain answered | nothing := known
    · exact reads.complete answered _ recorded
    · rw [nothing] at recorded
      cases recorded
  refine ⟨fun own => ?_, fun known => ⟨exact' known, fun applied => ?_⟩⟩
  · exact outcome_applied.mpr fun held => begun.own _ own (reads.sound _ held)
  · have absent := (exact' known).mp applied
    exact (invariant.origin _ (complete migration listed)).resolve_left
      fun old => absent (begun.started _ old)

/-- One migration, and two processes that read the table before either has the lock. -/
def first : Migration := ⟨1, "create users", .simple⟩

/-- The steps of the two: one applies the migration, the other finds nothing left to apply. -/
def starters : List (Label Bool) :=
  [.read false true, .read true true, .lock false, .apply false, .unlock false,
    .report false true 5, .lock true, .unlock true, .report true true 9]

/-- The report of the first of them lists its one migration. -/
theorem reported_starters : ∃ state : State Bool,
    (system (fun _ => [first]) []).Reachable state ∧
      (report [first] [] [1] 5).steps.map (·.version) = versions [first] := by
  obtain ⟨state, ran, finished⟩ : ∃ state,
      starters.foldlM (step fun _ => [first]) (State.start []) = some state ∧
        state.stage false = .reported (report [first] [] [1] 5) := ⟨_, rfl, rfl⟩
  have reachable : (system (fun _ => [first]) []).Reachable state :=
    ⟨_, _, rfl, .of_foldlM ran⟩
  exact ⟨state, reachable, (reported List.nodup_nil reachable finished).2.1⟩

/-- Both of the two report the migration as applied. -/
theorem both_report_applied : ¬∀ (state : State Bool) (run other : Bool)
    (answer answer' : MigrationReport), (system (fun _ => [first]) []).Reachable state →
      state.stage run = .reported answer → state.stage other = .reported answer' →
        ∀ step ∈ answer.steps, ∀ step' ∈ answer'.steps, step.version = step'.version →
          step.outcome = .applied → step'.outcome = .applied → run = other := by
  intro unique
  obtain ⟨state, ran, finished, finished'⟩ : ∃ state,
      starters.foldlM (step fun _ => [first]) (State.start []) = some state ∧
        state.stage false = .reported (report [first] [] [1] 5) ∧
          state.stage true = .reported (report [first] [] [1] 9) := ⟨_, rfl, rfl, rfl⟩
  exact nomatch unique state false true _ _ ⟨_, _, rfl, .of_foldlM ran⟩ finished finished' _
    List.mem_cons_self _ List.mem_cons_self rfl rfl rfl

end Renvor.Migrate
