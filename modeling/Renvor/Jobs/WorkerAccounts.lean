import Renvor.Jobs.WorkerRuns

/-! # What the runs of a worker account for

In every state of every run the slots are within the bound, and the report says what became
of each claimed job (`Renvor.Worker.run_accounts`). No lease is given back while its handler
may still run, and no step makes a job claimable again while it may, where no handler outlives
the time it is joined for after its timeout (`Renvor.Worker.never_reopens`).
-/

namespace Renvor

open Foundation

namespace Worker

variable {worker : Worker} {stopping : Bool} {execution before after : Execution}

open Execution

/-! ## Releases -/

/-- The release ended so. -/
def Release.ended (outcome : ReleaseOutcome) : Release → Bool
  | asked _ (some how) => how = outcome
  | _ => false

/-- A release that is confirmed is one the store performed. -/
def Release.Honest (release : Release) : Prop :=
  ∀ performed, release = asked performed (some .released) → performed = true

/-- Whether a release ended in some way does not depend on what the store did. -/
theorem Release.ended_forget (outcome : ReleaseOutcome) (release : Release) :
    release.forget.ended outcome = release.ended outcome := by
  cases release with
  | asked performed how => cases how <;> rfl
  | unasked => rfl
  | withheld => rfl

/-- A lease is withheld exactly where it is known to be. -/
theorem Release.forget_withheld {release : Release} : release.forget = .withheld ↔
    release = .withheld := by
  cases release with
  | asked performed how => exact iff_of_false (fun same => by cases same) (fun same => by cases same)
  | unasked => rfl
  | withheld => rfl

/-- How many releases the report counts as ended in one way. -/
def Report.count (report : Report) : ReleaseOutcome → Nat
  | .released => report.released
  | .failed => report.releaseFailed
  | .timedOut => report.releaseTimedOut

/-- Recording a release counts it in its own way and in no other. -/
theorem Report.count_record (report : Report) (outcome other : ReleaseOutcome) :
    (report.record outcome).count other = report.count other + if outcome = other then 1 else 0 := by
  cases outcome <;> cases other <;> rfl

/-- A move of the execution leaves a confirmed release one that the store performed. -/
theorem Moved.honest {move : Move} (moved : Moved worker stopping before move after)
    (honest : before.release.Honest) : after.release.Honest := by
  cases moved
  case perform outcome asked =>
    intro performed same
    cases same
    rfl
  all_goals exact honest

/-! ## Stopping -/

/-- What is sound before stopping is sound after it. -/
theorem sound_stopping (sound : execution.Sound stopping) : execution.Sound true := by
  unfold Sound at sound ⊢
  split at sound
  case h_4 => exact ⟨(fun same => by cases same), sound.2⟩
  case h_6 => exact ⟨sound.1, sound.2.1, sound.2.2.1, fun _ => rfl⟩
  case h_9 => exact ⟨sound.1, sound.2.1, sound.2.2.1, rfl⟩
  case h_11 => exact ⟨sound.1, rfl⟩
  all_goals exact sound

/-- Sweeping an execution leaves it sound, now that the worker stops. -/
theorem sound_sweep (sound : execution.Sound stopping) : execution.sweep.Sound true := by
  replace sound := sound_stopping sound
  unfold sweep
  split
  next listed =>
    unfold Sound at sound ⊢
    dsimp only
    split at sound
    case h_4 => exact ⟨(fun same => by cases same), sound.2⟩
    case h_5 => exact sound
    case h_6 => exact ⟨by rw [Task.isRunning_abort]; exact sound.1, sound.2⟩
    case h_7 => exact ⟨sound.1, .inl listed⟩
    case h_8 => exact ⟨sound.1, .inl listed⟩
    case h_11 =>
      refine ⟨?_, rfl⟩
      have left := sound.1
      unfold Left at left ⊢
      dsimp only
      rw [listed] at left ⊢
      cases released : execution.release <;> rw [released] at left <;> exact left
    case h_12 =>
      unfold Left at sound ⊢
      dsimp only
      rw [listed] at sound ⊢
      cases released : execution.release <;> rw [released] at sound <;> exact sound
    -- elsewhere the job is not in the table as running
    all_goals simp_all
  next => exact sound

/-- An execution that is listed and whose wrapper is gone was left behind. -/
theorem left_of_gone (sound : execution.Sound stopping) (gone : execution.wrapper.gone = true)
    (listed : execution.entry ≠ none) : execution.Left := by
  unfold Sound at sound
  split at sound
  case h_1 => exact (listed sound.2.1).elim
  case h_10 => exact (listed sound.1).elim
  case h_11 => exact sound.1
  case h_12 => exact sound
  all_goals simp_all [Wrapper.gone]

/-- A job that is taken out of the table. -/
theorem drain_cases (sound : execution.Sound stopping) (gone : execution.wrapper.gone = true) :
    (execution.entry = none ∧ execution.drain = execution) ∨
    (execution.entry = some .running ∧ execution.release = .unasked ∧
      execution.drain = { execution with entry := none, release := .withheld }) ∨
    (execution.entry ≠ some .running ∧ execution.release = .unasked ∧
      execution.task.isRunning = false ∧
      execution.drain = { execution with entry := none, release := .asked false none }) := by
  cases listed : execution.entry with
  | none =>
      refine .inl ⟨rfl, ?_⟩
      rw [drain, listed]
  | some handler =>
      have left := left_of_gone sound gone (by rw [listed]; exact Option.some_ne_none _)
      unfold Left at left
      rw [listed] at left
      cases released : execution.release with
      | unasked =>
          rw [released] at left
          cases handler with
          | running => exact .inr (.inl ⟨rfl, rfl, by rw [drain, listed]⟩)
          | notStarted => exact .inr (.inr ⟨(fun same => by cases same), rfl, left, by rw [drain, listed]⟩)
          | terminated => exact .inr (.inr ⟨(fun same => by cases same), rfl, left, by rw [drain, listed]⟩)
      | withheld =>
          rw [released] at left
          cases handler <;> exact left.elim
      | asked performed outcome =>
          rw [released] at left
          cases handler <;> exact left.elim

/-- Draining an execution whose wrapper is gone leaves it sound. -/
theorem sound_drain (sound : execution.Sound stopping) (gone : execution.wrapper.gone = true) :
    execution.drain.Sound stopping := by
  have left : ∀ release, (release = .withheld ∨
      (∃ performed outcome, release = .asked performed outcome) ∧ execution.task.isRunning = false) →
      Left { execution with entry := none, release := release } := by
    rintro _ (rfl | ⟨⟨performed, outcome, rfl⟩, idle⟩)
    · exact trivial
    · exact idle
  have drained : ∀ release, execution.entry ≠ none → (release = .withheld ∨
      (∃ performed outcome, release = .asked performed outcome) ∧ execution.task.isRunning = false) →
      Sound stopping { execution with entry := none, release := release } := by
    intro release listed fits
    unfold Sound at sound ⊢
    dsimp only
    split at sound
    case h_1 => exact (listed sound.2.1).elim
    case h_10 => exact (listed sound.1).elim
    case h_11 => exact ⟨left release fits, sound.2⟩
    case h_12 => exact left release fits
    all_goals simp_all [Wrapper.gone]
  obtain ⟨_, same⟩ | ⟨listed, _, same⟩ | ⟨listed, _, idle, same⟩ := drain_cases sound gone
  · rw [same]
    exact sound
  · rw [same]
    exact drained _ (by rw [listed]; exact Option.some_ne_none _) (.inl rfl)
  · by_cases none : execution.entry = none
    · rw [drain, none]
      exact sound
    · rw [same]
      exact drained _ none (.inr ⟨⟨_, _, rfl⟩, idle⟩)

/-- A wrapper that is aborted, or panics, leaves its job to the table. -/
theorem sound_cut (sound : execution.Sound stopping) (awaits : execution.wrapper.awaits = true) :
    Sound stopping { execution with wrapper := .aborted } := by
  show Left { execution with wrapper := .aborted }
  unfold Sound at sound
  unfold Left
  dsimp only
  split at sound
  case h_2 =>
    rw [sound.2.1, sound.2.2, sound.1]
    rfl
  case h_4 =>
    rw [sound.2.1, sound.2.2]
    exact trivial
  case h_5 =>
    rw [sound.1, sound.2]
    exact trivial
  case h_7 =>
    obtain ⟨unasked, listed | ⟨handler, listed, idle⟩⟩ := sound
    · rw [listed, unasked]
      exact trivial
    · rw [listed, unasked]
      cases handler with
      | running => exact trivial
      | notStarted => exact idle
      | terminated => exact idle
  all_goals simp_all [Wrapper.awaits]

/-! ## All jobs -/

/-- The claim that has no permit yet. -/
def Phase.pending : Phase → Nat
  | permitting _ => 1
  | _ => 0

/-- The slot that the run itself holds, of a claim that has no permit or was refused one. -/
def Phase.held : Phase → Nat
  | permitting _ | givingBack => 1
  | _ => 0

/-- A claim that is pending holds its slot. -/
theorem Phase.held_of_pending {phase : Phase} (pending : phase.pending = 1) : phase.held = 1 := by
  cases phase with
  | permitting claimed => rfl
  | polling | givingBack | grace | joining | aborting | releasing | stopped => cases pending

/-- **What a run accounts for.** -/
structure State.Accounted (worker : Worker) (state : State) : Prop where
  sound : ∀ execution ∈ state.executions, execution.Sound state.stopping
  honest : ∀ execution ∈ state.executions, execution.release.Honest
  room : state.slots + state.phase.held ≤ worker.concurrency
  claims : state.report.claimed = state.executions.length + state.phase.pending
  releases : ∀ outcome, state.report.count outcome =
    state.executions.countP fun execution => execution.release.ended outcome
  withheld : state.report.releaseWithheld =
    state.executions.countP fun execution => execution.release = .withheld

/-- Replacing one item changes a count by that item alone. -/
theorem countP_set {Item : Type} (test : Item → Bool) {items : List Item} {key : Nat} {old : Item}
    (new : Item) (found : items[key]? = some old) : (items.set key new).countP test + (if test old then 1 else 0) =
      items.countP test + if test new then 1 else 0 := by
  induction items generalizing key with
  | nil => cases found
  | cons item rest ih =>
      cases key with
      | zero =>
          cases found
          rw [List.set_cons_zero, List.countP_cons, List.countP_cons]
          omega
      | succ key =>
          have later := @ih key found
          rw [List.set_cons_succ, List.countP_cons, List.countP_cons]
          omega

/-- A change of one execution leaves the others and the rest of the state alone. -/
theorem change_some {state next : State} {key : Nat} {change : Execution → Option Execution}
    (changes : state.change key change = some next) : ∃ before after,
      state.executions[key]? = some before ∧ change before = some after ∧
        next = { state with executions := state.executions.set key after } := by
  obtain ⟨before, found, changes⟩ := Option.bind_eq_some_iff.mp changes
  obtain ⟨after, made, same⟩ := Option.bind_eq_some_iff.mp changes
  exact ⟨before, after, found, made, (Option.some.inj same).symm⟩

/-- A slot is taken by no change of a job. -/
theorem slots_set {state : State} {key : Nat} (found : state.executions[key]? = some before)
    (gone : before.wrapper.gone = true → after.wrapper.gone = true) :
    (state.executions.set key after).countP (fun execution => !execution.wrapper.gone) ≤
      state.slots := by
  have counted := countP_set (fun execution : Execution => !execution.wrapper.gone)
    after found
  rw [State.slots]
  cases was : before.wrapper.gone with
  | true => simp only [was, gone was, Bool.not_true] at counted; omega
  | false => cases is : after.wrapper.gone <;> simp only [was, is] at counted <;> simp at counted <;> omega

/-- A job changes, but for how its release ended. -/
theorem State.Accounted.change {state next : State} (accounted : state.Accounted worker) {key : Nat}
    {change : Execution → Option Execution} (changes : state.change key change = some next)
    (keeps : ∀ before after, before.Sound state.stopping → before.release.Honest →
      change before = some after → after.Sound state.stopping ∧ after.release.Honest ∧
        (before.wrapper.gone = true → after.wrapper.gone = true) ∧
        after.release.forget = before.release.forget) : next.Accounted worker := by
  obtain ⟨before, after, found, made, rfl⟩ := change_some changes
  have member := List.mem_of_getElem? found
  obtain ⟨sound, honest, gone, release⟩ :=
    keeps before after (accounted.sound before member) (accounted.honest before member) made
  have among : ∀ {execution}, execution ∈ state.executions.set key after →
      execution ∈ state.executions ∨ execution = after := List.mem_or_eq_of_mem_set
  refine ⟨fun execution held => ?_, fun execution held => ?_, ?_, ?_, fun outcome => ?_, ?_⟩
  · obtain held | rfl := among held
    · exact accounted.sound execution held
    · exact sound
  · obtain held | rfl := among held
    · exact accounted.honest execution held
    · exact honest
  · exact le_trans (Nat.add_le_add_right (slots_set found gone) _) accounted.room
  · rw [List.length_set]
    exact accounted.claims
  · have counted := countP_set (fun execution : Execution => execution.release.ended outcome)
      after found
    rw [← Release.ended_forget outcome after.release, release, Release.ended_forget] at counted
    exact (accounted.releases outcome).trans (Nat.add_right_cancel counted).symm
  · have counted := countP_set
      (fun execution : Execution => decide (execution.release = .withheld))
      after found
    have same : after.release = .withheld ↔ before.release = .withheld := by
      rw [← Release.forget_withheld, release, Release.forget_withheld]
    rw [decide_eq_decide.mpr same] at counted
    exact accounted.withheld.trans (Nat.add_right_cancel counted).symm

/-- A release is concluded once, and told as released only where the store did it. -/
theorem conclude_some {outcome : ReleaseOutcome}
    (concludes : before.conclude outcome = some after) : ∃ performed,
      before.release = .asked performed none ∧ (outcome = .released → performed = true) ∧
        after = { before with release := .asked performed (some outcome) } := by
  unfold Execution.conclude at concludes
  split at concludes
  next performed asked =>
    split at concludes
    next => cases concludes
    next confirmed =>
      refine ⟨performed, asked, fun released => ?_, (Option.some.inj concludes).symm⟩
      by_contra unperformed
      exact confirmed ⟨released, Bool.not_eq_true _ ▸ unperformed⟩
  next => cases concludes

/-- A release ends, and the report counts how. -/
theorem State.Accounted.conclude {state next : State} (accounted : state.Accounted worker)
    {key : Nat} {outcome : ReleaseOutcome}
    (concludes : state.change key (fun execution => execution.conclude outcome) = some next)
    {phase : Phase} (pending : phase.pending = state.phase.pending)
    (held : phase.held ≤ state.phase.held) :
    State.Accounted worker
      { next with phase := phase, report := state.report.record outcome } := by
  obtain ⟨before, after, found, made, rfl⟩ := change_some concludes
  obtain ⟨performed, asked, confirmed, rfl⟩ := conclude_some made
  have member := List.mem_of_getElem? found
  have among : ∀ {execution after}, execution ∈ state.executions.set key after →
      execution ∈ state.executions ∨ execution = after := List.mem_or_eq_of_mem_set
  refine ⟨fun execution held => ?_, fun execution held => ?_, ?_, ?_, fun other => ?_, ?_⟩
  · obtain held | rfl := among held
    · exact accounted.sound execution held
    · exact sound_release (accounted.sound before member) asked
  · obtain held | rfl := among held
    · exact accounted.honest execution held
    · intro done same
      cases same
      exact confirmed rfl
  · show State.slots _ + phase.held ≤ _
    have slots := @slots_set before { before with release := .asked performed (some outcome) }
      state key found id
    exact le_trans (Nat.add_le_add slots held) accounted.room
  · show (state.report.record outcome).claimed = _ + phase.pending
    rw [pending, List.length_set, ← accounted.claims]
    cases outcome <;> rfl
  · have counted := countP_set (fun execution : Execution => execution.release.ended other)
      { before with release := .asked performed (some outcome) } found
    rw [asked] at counted
    show (state.report.record outcome).count other = _
    rw [Report.count_record, accounted.releases other]
    simp only [Release.ended, Bool.false_eq_true, if_false, decide_eq_true_eq] at counted ⊢
    exact counted.symm
  · have counted := countP_set
      (fun execution : Execution => decide (execution.release = .withheld))
      { before with release := .asked performed (some outcome) } found
    rw [asked] at counted
    show (state.report.record outcome).releaseWithheld = _
    have same : (state.report.record outcome).releaseWithheld = state.report.releaseWithheld := by
      cases outcome <;> rfl
    rw [same, accounted.withheld]
    simpa using counted.symm

/-- Draining leaves the wrapper alone. -/
theorem drain_wrapper (execution : Execution) : execution.drain.wrapper = execution.wrapper := by
  unfold Execution.drain
  split <;> rfl

/-- Sweeping leaves the wrapper alone. -/
theorem sweep_wrapper (execution : Execution) : execution.sweep.wrapper = execution.wrapper := by
  unfold Execution.sweep
  split <;> rfl

/-- Sweeping leaves the release alone. -/
theorem sweep_release (execution : Execution) : execution.sweep.release = execution.release := by
  unfold Execution.sweep
  split <;> rfl

/-- The leases that are kept at the drain are those of the jobs in the table as running. -/
theorem withheld_drain {executions : List Execution}
    (each : ∀ execution ∈ executions, execution.Sound stopping ∧ execution.wrapper.gone = true) :
    (executions.map Execution.drain).countP (fun execution => execution.release = .withheld) =
      executions.countP (fun execution => execution.release = .withheld) +
        executions.countP fun execution => execution.entry = some .running := by
  induction executions with
  | nil => rfl
  | cons execution rest ih =>
      have later := ih fun other member => each other (List.mem_cons_of_mem _ member)
      obtain ⟨sound, gone⟩ := each execution List.mem_cons_self
      rw [List.map_cons, List.countP_cons, List.countP_cons, List.countP_cons, later]
      obtain ⟨listed, same⟩ | ⟨listed, released, same⟩ | ⟨listed, released, _, same⟩ :=
        drain_cases sound gone
      · rw [same, listed]
        simp
        omega
      · rw [same, listed, released]
        simp
        omega
      · rw [same, released]
        simp [listed]

/-- Draining keeps the accounts, once nothing runs and no claim is pending. -/
theorem State.Accounted.drain {state : State} (accounted : state.Accounted worker)
    (quiet : state.quiet = true) (pending : state.phase.pending = 0) :
    state.drain.Accounted worker := by
  have gone : ∀ execution ∈ state.executions, execution.wrapper.gone = true :=
    List.all_eq_true.mp quiet
  refine ⟨fun drained held => ?_, fun drained held => ?_, ?_, ?_, fun outcome => ?_, ?_⟩
  · obtain ⟨execution, member, rfl⟩ := List.mem_map.mp held
    exact sound_drain (accounted.sound execution member) (gone execution member)
  · obtain ⟨execution, member, rfl⟩ := List.mem_map.mp held
    obtain ⟨_, same⟩ | ⟨_, _, same⟩ | ⟨_, _, _, same⟩ :=
      drain_cases (accounted.sound execution member) (gone execution member)
    · rw [same]
      exact accounted.honest execution member
    · rw [same]
      exact fun _ same => by cases same
    · rw [same]
      exact fun _ same => by cases same
  · have slots : state.drain.slots = state.slots := by
      simp only [State.slots, State.drain, List.countP_map]
      refine List.countP_congr fun execution _ => ?_
      simp only [Function.comp_apply, drain_wrapper]
    have room := accounted.room
    rw [slots]
    show _ + 0 ≤ _
    omega
  · show state.report.claimed = (state.executions.map Execution.drain).length + 0
    rw [List.length_map, accounted.claims, pending]
  · show state.report.count outcome = (state.executions.map Execution.drain).countP _
    rw [accounted.releases outcome, List.countP_map]
    refine List.countP_congr fun execution member => ?_
    rw [Function.comp_apply]
    obtain ⟨_, same⟩ | ⟨_, released, same⟩ | ⟨_, released, _, same⟩ :=
      drain_cases (accounted.sound execution member) (gone execution member)
    · rw [same]
    · rw [same, released]
      exact Iff.rfl
    · rw [same, released]
      exact Iff.rfl
  · show state.report.releaseWithheld + _ = (state.executions.map Execution.drain).countP _
    rw [withheld_drain fun execution member =>
      ⟨accounted.sound execution member, gone execution member⟩, accounted.withheld]

/-- Sweeping keeps the accounts, once no claim is pending. -/
theorem State.Accounted.sweep {state : State} (accounted : state.Accounted worker)
    (pending : state.phase.pending = 0) (aborted : Nat) : State.Accounted worker { state with
      phase := .joining
      executions := state.executions.map Execution.sweep
      stopping := true
      report := { state.report with aborted := aborted } } := by
  have count : ∀ {test : Execution → Bool},
      (∀ execution : Execution, test execution.sweep = test execution) →
      (state.executions.map Execution.sweep).countP test = state.executions.countP test := by
    intro test same
    rw [List.countP_map]
    exact List.countP_congr fun execution _ => by rw [Function.comp_apply, same]
  refine ⟨fun swept held => ?_, fun swept held => ?_, ?_, ?_, fun outcome => ?_, ?_⟩
  · obtain ⟨execution, member, rfl⟩ := List.mem_map.mp held
    exact sound_sweep (accounted.sound execution member)
  · obtain ⟨execution, member, rfl⟩ := List.mem_map.mp held
    rw [sweep_release]
    exact accounted.honest execution member
  · show (state.executions.map Execution.sweep).countP _ + 0 ≤ _
    rw [count fun execution => by rw [sweep_wrapper]]
    exact le_trans (Nat.add_le_add_left (Nat.zero_le _) _) accounted.room
  · show state.report.claimed = (state.executions.map Execution.sweep).length + 0
    rw [List.length_map, accounted.claims, pending]
  · show state.report.count outcome = (state.executions.map Execution.sweep).countP _
    rw [count fun execution => by rw [sweep_release]]
    exact accounted.releases outcome
  · show state.report.releaseWithheld = (state.executions.map Execution.sweep).countP _
    rw [count fun execution => by rw [sweep_release]]
    exact accounted.withheld

/-- A phase with as many pending claims and no more slots held keeps the accounts. -/
theorem State.Accounted.phase {state : State} (accounted : state.Accounted worker) {phase : Phase}
    (pending : phase.pending = state.phase.pending) (held : phase.held ≤ state.phase.held) :
    State.Accounted worker { state with phase := phase } := by
  refine ⟨accounted.sound, accounted.honest, ?_, ?_, accounted.releases, accounted.withheld⟩
  · show state.slots + phase.held ≤ _
    exact le_trans (Nat.add_le_add_left held _) accounted.room
  · show _ = _ + phase.pending
    rw [pending]
    exact accounted.claims

/-- The pending claim becomes a job, which has its slot or leaves it to the run. -/
theorem State.Accounted.admit {state : State} (accounted : state.Accounted worker)
    (claimed : state.phase.pending = 1) {phase : Phase} (pending : phase.pending = 0)
    (one : (if execution.wrapper.gone then 0 else 1) + phase.held = 1)
    (sound : execution.Sound state.stopping)
    (open' : ∀ outcome, execution.release.ended outcome = false)
    (given : execution.release ≠ .withheld) :
    State.Accounted worker
      { state with phase := phase, executions := state.executions ++ [execution] } := by
  refine ⟨fun other held => ?_, fun other held => ?_, ?_, ?_, fun outcome => ?_, ?_⟩
  · obtain held | last := List.mem_append.mp held
    · exact accounted.sound other held
    · rw [List.mem_singleton.mp last]
      exact sound
  · obtain held | last := List.mem_append.mp held
    · exact accounted.honest other held
    · rw [List.mem_singleton.mp last]
      intro performed same
      have ended := open' .released
      rw [same] at ended
      cases ended
  · show (state.executions ++ [execution]).countP _ + phase.held ≤ _
    have room := accounted.room
    rw [Phase.held_of_pending claimed, State.slots] at room
    rw [List.countP_append, List.countP_singleton]
    cases gone : execution.wrapper.gone <;> simp [gone] at one ⊢ <;> omega
  · show _ = (state.executions ++ [execution]).length + phase.pending
    rw [accounted.claims, claimed, pending, List.length_append, List.length_singleton]
  · show state.report.count outcome = (state.executions ++ [execution]).countP _
    rw [accounted.releases outcome, List.countP_append, List.countP_singleton, open' outcome]
    rfl
  · show state.report.releaseWithheld = (state.executions ++ [execution]).countP _
    rw [accounted.withheld, List.countP_append, List.countP_singleton,
      if_neg (by rw [decide_eq_true_eq]; exact given)]
    rfl

/-- **Every step keeps the account.** -/
theorem State.Accounted.step {state next : State} {label : Label} (accounted : state.Accounted worker)
    (steps : worker.step state label = some next) : next.Accounted worker := by
  cases label with
  | claim claimed =>
      obtain ⟨⟨polling, free⟩, same⟩ := Option.ite_none_right_eq_some.mp steps
      cases same
      have none : state.phase.pending = 0 := by
        rw [polling]
        rfl
      refine ⟨accounted.sound, accounted.honest, ?_, ?_, accounted.releases, accounted.withheld⟩
      · show state.slots + 1 ≤ _
        exact free
      · show state.report.claimed + 1 = state.executions.length + 1
        rw [accounted.claims, none]
  | permit =>
      simp only [Worker.step] at steps
      split at steps
      next claimed here =>
        cases steps
        exact accounted.admit (by rw [here]; rfl) rfl rfl ⟨rfl, rfl, rfl⟩ (fun _ => rfl)
          (fun same => by cases same)
      next => cases steps
  | refuse =>
      simp only [Worker.step] at steps
      split at steps
      next claimed here =>
        cases steps
        exact accounted.admit (by rw [here]; rfl) rfl rfl ⟨rfl, rfl, _, _, rfl⟩ (fun _ => rfl)
          (fun same => by cases same)
      next => cases steps
  | cancel =>
      obtain ⟨here, same⟩ := Option.ite_none_right_eq_some.mp steps
      cases same
      exact accounted.phase (by rw [here]; rfl) (by rw [here]; exact le_rfl)
  | graceful =>
      obtain ⟨⟨here, _⟩, same⟩ := Option.ite_none_right_eq_some.mp steps
      cases same
      exact accounted.phase (by rw [here]; rfl) (by rw [here]; exact le_rfl)
  | sweep =>
      obtain ⟨here, same⟩ := Option.ite_none_right_eq_some.mp steps
      cases same
      exact accounted.sweep (by rw [here]; rfl) _
  | joined =>
      obtain ⟨⟨here, quiet⟩, same⟩ := Option.ite_none_right_eq_some.mp steps
      cases same
      exact accounted.drain quiet (by rw [here]; rfl)
  | bound =>
      obtain ⟨here, same⟩ := Option.ite_none_right_eq_some.mp steps
      cases same
      exact accounted.phase (by rw [here]; rfl) (by rw [here]; exact le_rfl)
  | aborted =>
      obtain ⟨⟨here, quiet⟩, same⟩ := Option.ite_none_right_eq_some.mp steps
      cases same
      exact accounted.drain quiet (by rw [here]; rfl)
  | move key move =>
      refine accounted.change steps fun before after sound honest moves => ?_
      have moved := moved_of_move moves
      have frame := moved.frame
      exact ⟨moved.sound sound, moved.honest honest,
        fun gone => by rw [frame.gone gone]; exact gone, frame.release⟩
  | cut key =>
      obtain ⟨_, steps⟩ := Option.ite_none_right_eq_some.mp steps
      refine accounted.change steps fun before after sound honest cuts => ?_
      obtain ⟨awaits, same⟩ := Option.ite_none_right_eq_some.mp cuts
      cases same
      exact ⟨sound_cut sound awaits, honest, fun _ => rfl, rfl⟩
  | crash key =>
      refine accounted.change steps fun before after sound honest cuts => ?_
      obtain ⟨awaits, same⟩ := Option.ite_none_right_eq_some.mp cuts
      cases same
      exact ⟨sound_cut sound awaits, honest, fun _ => rfl, rfl⟩
  | conclude key outcome =>
      obtain ⟨after, changes, same⟩ := Option.bind_eq_some_iff.mp steps
      cases same
      obtain ⟨_, _, _, _, rfl⟩ := change_some changes
      refine accounted.conclude changes ?_ ?_
      · split
        next here =>
          rw [here]
          rfl
        next => rfl
      · split
        next => exact Nat.zero_le _
        next => exact le_rfl
  | stop =>
      obtain ⟨⟨here, _⟩, same⟩ := Option.ite_none_right_eq_some.mp steps
      cases same
      exact accounted.phase (by rw [here]; rfl) (by rw [here]; exact le_rfl)

/-- A worker that has claimed nothing has nothing to account for. -/
theorem accounted_start : State.start.Accounted worker := by
  refine ⟨fun _ held => (List.not_mem_nil held).elim, fun _ held => (List.not_mem_nil held).elim,
    Nat.zero_le _, rfl, fun outcome => ?_, rfl⟩
  cases outcome <;> rfl

/-- The accounts are kept in every state that a worker reaches. -/
theorem accounted_reachable {state : State} (reachable : worker.system.Reachable state) :
    state.Accounted worker := by
  have invariant : worker.system.Invariant (State.Accounted worker) := by
    refine ⟨?_, fun _ _ _ accounted steps => accounted.step steps⟩
    rintro _ rfl
    exact accounted_start
  exact invariant.reachable reachable

/-- A lease that is given back is of a job whose handler does not run. -/
theorem idle_of_asked (sound : execution.Sound stopping) {performed : Bool}
    {outcome : Option ReleaseOutcome} (asked : execution.release = .asked performed outcome) :
    execution.task.isRunning = false := by
  have left : execution.Left → execution.task.isRunning = false := by
    unfold Left
    rw [asked]
    cases execution.entry with
    | none => exact id
    | some handler => cases handler <;> exact False.elim
  have sent : execution.release ≠ .unasked := by
    rw [asked]
    exact fun same => by cases same
  unfold Sound at sound
  split at sound
  case h_1 =>
    rw [sound.1]
    rfl
  case h_2 => exact (sent sound.2.2).elim
  case h_3 => exact (sent sound.2.2).elim
  case h_4 => exact (sent sound.2.2).elim
  case h_5 => exact (sent sound.2).elim
  case h_6 => exact sound.1
  case h_7 => exact (sent sound.1).elim
  case h_8 => exact (sent sound.1).elim
  case h_9 => exact sound.1
  case h_10 => exact (sent sound.2).elim
  case h_11 => exact left sound.1
  case h_12 => exact left sound

/-- **What a worker's run accounts for.** The slots stay within the bound, the run's own
among them, every claim is a job of the run or pending, the report counts the releases as they
ended and the leases that are kept, a release counts as done only if the store performed it,
and a lease that is given back is of a job whose handler does not run. -/
theorem run_accounts (worker : Worker) {state : State} (reachable : worker.system.Reachable state) :
    state.slots + state.phase.held ≤ worker.concurrency ∧
      state.report.claimed = state.executions.length + state.phase.pending ∧
      (∀ outcome, state.report.count outcome =
        state.executions.countP fun execution => execution.release.ended outcome) ∧
      state.report.releaseWithheld =
        state.executions.countP (fun execution => execution.release = .withheld) ∧
      ∀ execution ∈ state.executions, ∀ performed outcome,
        execution.release = .asked performed outcome →
          execution.task.isRunning = false ∧ (outcome = some .released → performed = true) := by
  have accounted := accounted_reachable reachable
  refine ⟨accounted.room, accounted.claims, accounted.releases, accounted.withheld, ?_⟩
  intro execution member performed outcome asked
  refine ⟨idle_of_asked (accounted.sound execution member) asked, ?_⟩
  rintro rfl
  exact accounted.honest execution member performed asked

/-! ## Samples -/

/-- A claim of the first of two attempts at a job with no payload. -/
def receipt : ClaimedJob where
  job := ⟨.counted 1, NewJob.receipt.queue, NewJob.receipt.kind, NewJob.receipt.payload, .leased, 1,
    2, 0, none, none, 0, 0, none⟩
  lease := .counted 2
  leaseExpiresAt := 60

/-- Two jobs at a time, of a kind that has a handler. -/
def pair : Worker := ⟨2, by decide, by decide, [NewJob.receipt.kind]⟩

/-- Two handlers run as the worker stops. One ends by its abort, and its lease is released;
the other holds its thread, and its lease is kept. -/
def stops : List Label :=
  [.claim receipt, .permit, .claim receipt, .permit, .move 0 .start, .move 0 .register,
    .move 1 .start, .move 1 .register, .cancel, .sweep, .move 0 .drop, .move 0 .resolve,
    .move 0 .mark, .move 0 .remove, .bound, .cut 1, .aborted, .move 0 .perform,
    .conclude 0 .released, .stop]

/-- A stop with one lease released and one kept. -/
theorem run_accounts_stop : ∃ state, pair.system.Reachable state ∧
    state.report = ⟨2, 2, 1, 0, 0, 1⟩ ∧ state.slots + state.phase.held ≤ 2 ∧
      state.report.releaseWithheld =
        state.executions.countP (fun execution => execution.release = .withheld) := by
  obtain ⟨state, ran, report⟩ : ∃ state, stops.foldlM pair.step State.start = some state ∧
      state.report = ⟨2, 2, 1, 0, 0, 1⟩ := ⟨_, rfl, rfl⟩
  have reachable : pair.system.Reachable state := ⟨State.start, _, rfl, .of_foldlM ran⟩
  obtain ⟨room, _, _, withheld, _⟩ := run_accounts pair reachable
  exact ⟨state, reachable, report, room, withheld⟩

/-! ## Jobs that are claimable again -/

/-- A job whose transition was sent is one whose handler does not run. -/
structure Idle (execution : Execution) : Prop where
  sent : execution.request.isSome = true → execution.task.isRunning = false
  unsent : execution.wrapper = .spawned → execution.request = none

/-- An execution in which no handler can run any more stays so, provided that joins are waited
for. -/
theorem Moved.idle {move : Move} (moved : Moved worker stopping before move after)
    (sound : before.Sound stopping) (idle : Idle before)
    (joins : move = .joinElapsed → before.task.isRunning = false) : Idle after := by
  cases moved
  case start here =>
    refine ⟨fun sent => ?_, (fun same => by cases same)⟩
    have unsent := idle.unsent here
    rw [show before.request = none from unsent] at sent
    cases sent
  case unhandled here =>
    refine ⟨fun _ => ?_, (fun same => by cases same)⟩
    unfold Sound at sound
    rw [here] at sound
    show before.task.isRunning = false
    rw [sound.1]
    rfl
  case register here =>
    refine ⟨fun sent => ?_, (fun same => by cases same)⟩
    have still := idle.sent sent
    show (if stopping then before.task.abort else before.task).isRunning = false
    split
    · rw [Task.isRunning_abort]
      exact still
    · exact still
  case ended => exact ⟨fun _ => rfl, idle.unsent⟩
  case resolve => exact ⟨idle.sent, (fun same => by cases same)⟩
  case timeOut =>
    refine ⟨fun sent => ?_, (fun same => by cases same)⟩
    rw [Task.isRunning_abort]
    exact idle.sent sent
  case rejoin => exact ⟨idle.sent, (fun same => by cases same)⟩
  case joinElapsed => exact ⟨fun _ => joins rfl, (fun same => by cases same)⟩
  case mark here =>
    refine ⟨fun _ => ?_, (fun same => by cases same)⟩
    unfold Sound at sound
    rw [here] at sound
    exact sound.1
  case markAborted => exact ⟨idle.sent, (fun same => by cases same)⟩
  case transact => exact ⟨(fun same => by cases same), fun _ => rfl⟩
  case answer => exact ⟨idle.sent, (fun same => by cases same)⟩
  case remove => exact ⟨idle.sent, (fun same => by cases same)⟩
  case leave => exact ⟨idle.sent, (fun same => by cases same)⟩
  case perform => exact ⟨idle.sent, idle.unsent⟩

/-- Sweeping starts no handler. -/
theorem Idle.sweep (idle : Idle execution) : Idle execution.sweep := by
  unfold Execution.sweep
  split
  · refine ⟨fun sent => ?_, idle.unsent⟩
    rw [Task.isRunning_abort]
    exact idle.sent sent
  · exact idle

/-- Draining starts no handler. -/
theorem Idle.drain (idle : Idle execution) : Idle execution.drain := by
  unfold Execution.drain
  split
  · exact idle
  · exact ⟨idle.sent, idle.unsent⟩
  · exact ⟨idle.sent, idle.unsent⟩

/-- A changed job is idle, and the others stay so. -/
theorem idle_change {state next : State} (idle : ∀ execution ∈ state.executions, Idle execution)
    {key : Nat} {change : Execution → Option Execution}
    (changes : state.change key change = some next)
    (keeps : ∀ before after, state.executions[key]? = some before → change before = some after →
      Idle after) : ∀ execution ∈ next.executions, Idle execution := by
  obtain ⟨before, after, found, made, rfl⟩ := change_some changes
  intro execution held
  obtain held | rfl := List.mem_or_eq_of_mem_set held
  · exact idle execution held
  · exact keeps before execution found made

/-- No step of the worker starts a handler again. -/
theorem idle_step {state next : State} {label : Label} (accounted : state.Accounted worker)
    (idle : ∀ execution ∈ state.executions, Idle execution) (joins : Joins state label)
    (steps : worker.step state label = some next) :
    ∀ execution ∈ next.executions, Idle execution := by
  have added : ∀ execution, Idle execution → ∀ other ∈ state.executions ++ [execution], Idle other := by
    intro execution single other held
    obtain held | last := List.mem_append.mp held
    · exact idle other held
    · rw [List.mem_singleton.mp last]
      exact single
  have all : ∀ change : Execution → Execution, (∀ execution, Idle execution → Idle (change execution)) →
      ∀ other ∈ state.executions.map change, Idle other := by
    intro change keeps other held
    obtain ⟨execution, member, rfl⟩ := List.mem_map.mp held
    exact keeps execution (idle execution member)
  cases label with
  | claim claimed =>
      obtain ⟨_, same⟩ := Option.ite_none_right_eq_some.mp steps
      cases same
      exact idle
  | permit =>
      simp only [Worker.step] at steps
      split at steps
      next =>
        cases steps
        exact added _ ⟨(fun same => by cases same), fun _ => rfl⟩
      next => cases steps
  | refuse =>
      simp only [Worker.step] at steps
      split at steps
      next =>
        cases steps
        exact added _ ⟨(fun same => by cases same), (fun same => by cases same)⟩
      next => cases steps
  | cancel =>
      obtain ⟨_, same⟩ := Option.ite_none_right_eq_some.mp steps
      cases same
      exact idle
  | graceful =>
      obtain ⟨_, same⟩ := Option.ite_none_right_eq_some.mp steps
      cases same
      exact idle
  | sweep =>
      obtain ⟨_, same⟩ := Option.ite_none_right_eq_some.mp steps
      cases same
      exact all _ fun _ => Idle.sweep
  | joined =>
      obtain ⟨_, same⟩ := Option.ite_none_right_eq_some.mp steps
      cases same
      exact all _ fun _ => Idle.drain
  | bound =>
      obtain ⟨_, same⟩ := Option.ite_none_right_eq_some.mp steps
      cases same
      exact idle
  | aborted =>
      obtain ⟨_, same⟩ := Option.ite_none_right_eq_some.mp steps
      cases same
      exact all _ fun _ => Idle.drain
  | move key move =>
      refine idle_change idle steps fun before after found moves => ?_
      have member := List.mem_of_getElem? found
      refine (moved_of_move moves).idle (accounted.sound before member) (idle before member) ?_
      rintro rfl
      exact joins key before rfl found
  | cut key =>
      obtain ⟨_, steps⟩ := Option.ite_none_right_eq_some.mp steps
      refine idle_change idle steps fun before after found cuts => ?_
      obtain ⟨_, same⟩ := Option.ite_none_right_eq_some.mp cuts
      cases same
      exact ⟨(idle before (List.mem_of_getElem? found)).sent, (fun same => by cases same)⟩
  | crash key =>
      refine idle_change idle steps fun before after found cuts => ?_
      obtain ⟨_, same⟩ := Option.ite_none_right_eq_some.mp cuts
      cases same
      exact ⟨(idle before (List.mem_of_getElem? found)).sent, (fun same => by cases same)⟩
  | conclude key outcome =>
      obtain ⟨after, changes, same⟩ := Option.bind_eq_some_iff.mp steps
      cases same
      show ∀ execution ∈ after.executions, Idle execution
      refine idle_change idle changes fun before after found concludes => ?_
      obtain ⟨_, _, _, rfl⟩ := conclude_some concludes
      have held := idle before (List.mem_of_getElem? found)
      exact ⟨held.sent, held.unsent⟩
  | stop =>
      obtain ⟨_, same⟩ := Option.ite_none_right_eq_some.mp steps
      cases same
      exact idle

/-- **No step makes a job claimable again while its handler may still run**, in a run where no
handler outlives the time it is joined for after its timeout. -/
theorem never_reopens (worker : Worker) {state next : State} {label : Label}
    (reachable : (worker.system.restrict Joins).Reachable state)
    (steps : worker.step state label = some next) (reopens : Reopens state label execution) :
    execution.task.isRunning = false := by
  have invariant : (worker.system.restrict Joins).Invariant fun state =>
      state.Accounted worker ∧ ∀ execution ∈ state.executions, Idle execution := by
    refine ⟨?_, fun _ _ _ kept steps => ⟨kept.1.step steps.1, idle_step kept.1 kept.2 steps.2 steps.1⟩⟩
    rintro _ rfl
    exact ⟨accounted_start, fun _ held => (List.not_mem_nil held).elim⟩
  obtain ⟨accounted, idle⟩ := invariant.reachable reachable
  obtain ⟨key, found, ⟨_, sent⟩ | rfl⟩ := reopens
  · refine (idle execution (List.mem_of_getElem? found)).sent ?_
    obtain ⟨failure, asked, _⟩ := Option.map_eq_some_iff.mp sent
    exact Option.isSome_iff_exists.mpr ⟨failure, asked⟩
  · obtain ⟨before, after, held, performs, _⟩ := change_some steps
    cases held.symm.trans found
    obtain ⟨outcome, asked⟩ : ∃ outcome, execution.release = .asked false outcome := by
      dsimp only [Execution.move] at performs
      split at performs
      next outcome asked => exact ⟨outcome, asked⟩
      next => cases performs
    exact idle_of_asked (accounted.sound execution (List.mem_of_getElem? found)) asked

/-- A handler runs into its timeout, ends by its abort and is joined. -/
def timesOut : List Label :=
  [.claim receipt, .permit, .move 0 .start, .move 0 .register, .move 0 .timeOut, .move 0 .drop,
    .move 0 .rejoin, .move 0 .mark]

/-- Its attempt is recorded then, and the job is claimable again. -/
theorem never_reopens_timeout : ∃ state execution next, (pair.system.restrict Joins).Reachable state ∧
    pair.step state (.move 0 .transact) = some next ∧
      Reopens state (.move 0 .transact) execution ∧ execution.task.isRunning = false := by
  obtain ⟨state, execution, next, ran, found, sent, steps⟩ : ∃ state execution next,
      timesOut.foldlM pair.step State.start = some state ∧
        state.executions[0]? = some execution ∧
          execution.request.map (transition execution.claimed.job) = some .rescheduled ∧
            pair.step state (.move 0 .transact) = some next := ⟨_, _, _, rfl, rfl, rfl, rfl⟩
  have run : pair.system.Run State.start timesOut state := .of_foldlM ran
  have guarded : (pair.system.restrict Joins).Reachable state := by
    refine ⟨State.start, _, rfl, run.restrict_labels fun label member state => ?_⟩
    rintro key execution rfl
    simp [timesOut] at member
  have reopens : Reopens state (.move 0 .transact) execution := ⟨0, found, .inl ⟨rfl, sent⟩⟩
  exact ⟨state, execution, next, guarded, steps, reopens,
    never_reopens pair guarded steps reopens⟩

end Worker

end Renvor
