import Mathlib.Data.List.Basic
import Renvor.Jobs.Worker

/-! # What the runs of a worker keep

The table says of each job whether its handler may still run. Only where a handler outlives
the time it is joined for after its timeout does the wrapper record the attempt and give up
its slot with the handler running (`Renvor.Worker.never_reopens`,
`Renvor.Worker.run_accounts`).
-/

namespace Renvor

open Foundation

namespace Worker

variable {worker : Worker} {stopping : Bool}

/-- No abort was requested of a task, and none ended it. -/
def Task.own : Task → Bool
  | .running true | .ended .cancelled => false
  | _ => true

@[simp] theorem Task.isRunning_ended (ending : Ending) : (Task.ended ending).isRunning = false := rfl

@[simp] theorem Task.isRunning_none : Task.none.isRunning = false := rfl

@[simp] theorem Task.isRunning_abort (task : Task) : task.abort.isRunning = task.isRunning := by
  cases task <;> rfl

/-- A release but for whether the store performed it. -/
def Release.forget : Release → Release
  | .asked _ outcome => .asked false outcome
  | release => release

namespace Execution

/-- The wrapper is over and did not settle the job. -/
def held (execution : Execution) : Bool :=
  match execution.wrapper with
  | .refused | .aborted | .done .abortedAtStop => true
  | _ => false

/-- The job has a slot, or its wrapper was aborted with one. -/
def busy (execution : Execution) : Bool :=
  match execution.wrapper with
  | .refused | .done _ => false
  | _ => true

/-- A job whose wrapper is over and did not settle it: in the table as its handler stands,
or drained. -/
def Left (execution : Execution) : Prop :=
  match execution.entry, execution.release with
  | some .running, .unasked | none, .withheld => True
  | some _, .unasked | none, .asked _ _ => execution.task.isRunning = false
  | _, _ => False

/-- A job that a wrapper is recording: in the table, as running when its handler may be. -/
def Kept (execution : Execution) : Prop :=
  execution.release = .unasked ∧ (execution.entry = some .running ∨
    ∃ handler, execution.entry = some handler ∧ execution.task.isRunning = false)

/-- What the table and the task of a job are at each place of its wrapper. -/
def Sound (stopping : Bool) (execution : Execution) : Prop :=
  match execution.wrapper with
  | .refused => execution.task = .none ∧ execution.entry = none ∧
      ∃ performed outcome, execution.release = .asked performed outcome
  | .spawned => execution.task = .none ∧ execution.entry = some .notStarted ∧
      execution.release = .unasked
  | .registering => execution.task.own = true ∧ execution.entry = some .notStarted ∧
      execution.release = .unasked
  | .waiting => (stopping = false → execution.task.own = true) ∧
      execution.entry = some .running ∧ execution.release = .unasked
  | .joining => execution.entry = some .running ∧ execution.release = .unasked
  | .resolved attempt => execution.task.isRunning = false ∧ execution.entry = some .running ∧
      execution.release = .unasked ∧ (attempt = .abortedAtStop → stopping = true)
  | .recording | .settled .recorded => execution.Kept
  | .settled .abortedAtStop => execution.task.isRunning = false ∧
      execution.entry = some .terminated ∧ execution.release = .unasked ∧ stopping = true
  | .done .recorded => execution.entry = none ∧ execution.release = .unasked
  | .done .abortedAtStop => execution.Left ∧ stopping = true
  | .aborted => execution.Left

/-- What a move does not touch. -/
structure Frame (before after : Execution) : Prop where
  claimed : after.claimed = before.claimed
  busy : after.busy = true → before.busy = true
  gone : before.wrapper.gone = true → after.wrapper = before.wrapper
  aborted : after.wrapper = .aborted → before.wrapper = .aborted
  entry : before.entry = none → after.entry = none
  release : after.release.forget = before.release.forget

end Execution

open Execution

/-- The moves, by what they find and what they leave. -/
inductive Moved (worker : Worker) (stopping : Bool) (before : Execution) : Move → Execution → Prop
  | start (here : before.wrapper = .spawned) :
      Moved worker stopping before .start
        { before with wrapper := .registering, task := .running false }
  | unhandled (here : before.wrapper = .spawned) :
      Moved worker stopping before .start (before.ask (some .abandoned))
  | register (here : before.wrapper = .registering) :
      Moved worker stopping before .register { before.setEntry .running with
        wrapper := .waiting, task := if stopping then before.task.abort else before.task }
  | ended {move : Move} {aborted : Bool} {ending : Ending} (running : before.task = .running aborted)
      (own : ending = .cancelled → aborted = true) :
      Moved worker stopping before move { before with task := .ended ending }
  | resolve {ending : Ending} (here : before.wrapper = .waiting) (ended : before.task = .ended ending) :
      Moved worker stopping before .resolve { before with wrapper := .resolved ending.attempt }
  | timeOut (here : before.wrapper = .waiting) :
      Moved worker stopping before .timeOut
        { before with wrapper := .joining, task := before.task.abort }
  | rejoin {ending : Ending} (here : before.wrapper = .joining) (ended : before.task = .ended ending) :
      Moved worker stopping before .rejoin
        { before with wrapper := .resolved (.ended (some .timedOut)) }
  | joinElapsed (here : before.wrapper = .joining) :
      Moved worker stopping before .joinElapsed (before.ask (some .timedOut))
  | mark {failure : Option FailureKind} (here : before.wrapper = .resolved (.ended failure)) :
      Moved worker stopping before .mark ((before.setEntry .terminated).ask failure)
  | markAborted (here : before.wrapper = .resolved .abortedAtStop) :
      Moved worker stopping before .mark
        { before.setEntry .terminated with wrapper := .settled .abortedAtStop }
  | transact {failure : Option FailureKind} (asked : before.request = some failure) :
      Moved worker stopping before .transact { before with request := none }
  | answer (here : before.wrapper = .recording) :
      Moved worker stopping before .answer { before with wrapper := .settled .recorded }
  | remove (here : before.wrapper = .settled .recorded) :
      Moved worker stopping before .remove { before with wrapper := .done .recorded, entry := none }
  | leave (here : before.wrapper = .settled .abortedAtStop) :
      Moved worker stopping before .remove { before with wrapper := .done .abortedAtStop }
  | perform {outcome : Option ReleaseOutcome} (asked : before.release = .asked false outcome) :
      Moved worker stopping before .perform { before with release := .asked true outcome }

theorem moved_of_move {before after : Execution} {move : Move}
    (moves : before.move worker stopping move = some after) :
    Moved worker stopping before move after := by
  have ends : ∀ {ending}, before.endTask ending = some after → ending ≠ .cancelled →
      Moved worker stopping before move after := by
    intro ending moves own
    unfold endTask at moves
    split at moves
    next aborted running =>
      cases moves
      exact .ended running fun same => (own same).elim
    next => cases moves
  cases move with
  | start =>
      dsimp only [Execution.move] at moves
      split at moves
      next here =>
        split at moves
        next =>
          cases moves
          exact .start here
        next =>
          cases moves
          exact .unhandled here
      next => cases moves
  | register =>
      dsimp only [Execution.move] at moves
      split at moves
      next here =>
        cases moves
        exact .register here
      next => cases moves
  | finish result => exact ends moves nofun
  | panic => exact ends moves nofun
  | drop =>
      dsimp only [Execution.move] at moves
      split at moves
      next running =>
        cases moves
        exact .ended running fun _ => rfl
      next => cases moves
  | resolve =>
      dsimp only [Execution.move] at moves
      split at moves
      next ending here ended =>
        cases moves
        exact .resolve here ended
      next => cases moves
  | timeOut =>
      dsimp only [Execution.move] at moves
      split at moves
      next here =>
        cases moves
        exact .timeOut here
      next => cases moves
  | rejoin =>
      dsimp only [Execution.move] at moves
      split at moves
      next ending here ended =>
        cases moves
        exact .rejoin here ended
      next => cases moves
  | joinElapsed =>
      dsimp only [Execution.move] at moves
      split at moves
      next here =>
        cases moves
        exact .joinElapsed here
      next => cases moves
  | mark =>
      dsimp only [Execution.move] at moves
      split at moves
      next failure here =>
        cases moves
        exact .mark here
      next here =>
        cases moves
        exact .markAborted here
      next => cases moves
  | transact =>
      dsimp only [Execution.move] at moves
      split at moves
      next failure asked =>
        cases moves
        exact .transact asked
      next => cases moves
  | answer =>
      dsimp only [Execution.move] at moves
      split at moves
      next here =>
        cases moves
        exact .answer here
      next => cases moves
  | remove =>
      dsimp only [Execution.move] at moves
      split at moves
      next here =>
        cases moves
        exact .remove here
      next here =>
        cases moves
        exact .leave here
      next => cases moves
  | perform =>
      dsimp only [Execution.move] at moves
      split at moves
      next outcome asked =>
        cases moves
        exact .perform asked
      next => cases moves

variable {before after : Execution} {move : Move}

/-- A move of a wrapper that is over leaves the wrapper, and no move gives up or aborts one. -/
theorem Moved.frame (moved : Moved worker stopping before move after) : Frame before after := by
  cases moved
  case ended => exact ⟨rfl, id, fun _ => rfl, id, id, rfl⟩
  case transact => exact ⟨rfl, id, fun _ => rfl, id, id, rfl⟩
  case perform outcome asked =>
    refine ⟨rfl, id, fun _ => rfl, id, id, ?_⟩
    rw [asked]
    rfl
  -- the wrapper moves from a place where it is not over to another
  all_goals constructor <;> simp [*, busy, Wrapper.gone, ask, setEntry]

/-- A task that ended leaves what held, where nothing was known of it but that it may run. -/
theorem sound_ended (sound : before.Sound stopping) {aborted : Bool} {ending : Ending}
    (running : before.task = .running aborted) (own : ending = .cancelled → aborted = true) :
    Sound stopping { before with task := .ended ending } := by
  have kept : before.task.own = true → (Task.ended ending).own = true := by
    intro free
    rw [running] at free
    cases ending with
    | cancelled =>
        rw [own rfl] at free
        cases free
    | returned result => rfl
    | panicked => rfl
  have left : before.Left → Left { before with task := .ended ending } := by
    unfold Left
    intro holds
    dsimp only
    split at holds <;> simp_all
  unfold Sound at sound ⊢
  dsimp only
  split at sound
  next => simp [running] at sound
  next => simp [running] at sound
  next => exact ⟨kept sound.1, sound.2⟩
  next => exact ⟨fun free => kept (sound.1 free), sound.2⟩
  next => exact sound
  next => simp [running, Task.isRunning] at sound
  next => exact ⟨sound.1, sound.2.imp_right fun ⟨handler, entry, _⟩ => ⟨handler, entry, rfl⟩⟩
  next => exact ⟨sound.1, sound.2.imp_right fun ⟨handler, entry, _⟩ => ⟨handler, entry, rfl⟩⟩
  next => exact ⟨rfl, sound.2⟩
  next => exact sound
  next => exact ⟨left sound.1, sound.2⟩
  next => exact left sound

/-- A release goes on without a change of the rest. -/
theorem sound_release (sound : before.Sound stopping) {performed done : Bool}
    {outcome concluded : Option ReleaseOutcome} (asked : before.release = .asked performed outcome) :
    Sound stopping { before with release := .asked done concluded } := by
  have left : before.Left → Left { before with release := .asked done concluded } := by
    unfold Left
    rw [asked]
    cases before.entry with
    | none => exact id
    | some handler => cases handler <;> exact False.elim
  unfold Sound at sound ⊢
  dsimp only
  split at sound
  case h_1 => exact ⟨sound.1, sound.2.1, done, concluded, rfl⟩
  case h_11 => exact ⟨left sound.1, sound.2⟩
  case h_12 => exact left sound
  -- elsewhere nothing was asked
  all_goals simp_all [Kept]

theorem Moved.sound (moved : Moved worker stopping before move after)
    (sound : before.Sound stopping) : after.Sound stopping := by
  cases moved
  case ended aborted ending running own => exact sound_ended sound running own
  case start here =>
    unfold Sound at sound ⊢
    rw [here] at sound
    exact ⟨rfl, sound.2⟩
  case unhandled here =>
    unfold Sound at sound ⊢
    rw [here] at sound
    exact ⟨sound.2.2, .inr ⟨_, sound.2.1, by rw [Execution.ask, sound.1]; rfl⟩⟩
  case register here =>
    unfold Sound at sound ⊢
    rw [here] at sound
    refine ⟨fun free => ?_, ?_, sound.2.2⟩
    · rw [free]
      exact sound.1
    · dsimp only [setEntry]
      rw [sound.2.1]
      rfl
  case resolve ending here ended =>
    unfold Sound at sound ⊢
    rw [here] at sound
    refine ⟨by rw [ended]; rfl, sound.2.1, sound.2.2, fun aborted => ?_⟩
    by_contra free
    have own := sound.1 (Bool.not_eq_true _ ▸ free)
    rw [ended] at own
    cases ending with
    | cancelled => cases own
    | panicked => cases aborted
    | returned result =>
        cases result with
        | ok => cases aborted
        | error error => cases error <;> cases aborted
  case timeOut here =>
    unfold Sound at sound ⊢
    rw [here] at sound
    exact sound.2
  case rejoin ending here ended =>
    unfold Sound at sound ⊢
    rw [here] at sound
    exact ⟨by rw [ended]; rfl, sound.1, sound.2, nofun⟩
  case joinElapsed here =>
    unfold Sound at sound ⊢
    rw [here] at sound
    exact ⟨sound.2, .inl sound.1⟩
  case mark failure here =>
    unfold Sound at sound ⊢
    rw [here] at sound
    refine ⟨sound.2.2.1, .inr ⟨.terminated, ?_, sound.1⟩⟩
    dsimp only [ask, setEntry]
    rw [sound.2.1]
    rfl
  case markAborted here =>
    unfold Sound at sound ⊢
    rw [here] at sound
    refine ⟨sound.1, ?_, sound.2.2.1, sound.2.2.2 rfl⟩
    dsimp only [setEntry]
    rw [sound.2.1]
    rfl
  case transact => exact sound
  case answer here =>
    unfold Sound at sound ⊢
    rw [here] at sound
    exact sound
  case remove here =>
    unfold Sound at sound ⊢
    rw [here] at sound
    exact ⟨rfl, sound.1⟩
  case leave here =>
    unfold Sound at sound ⊢
    rw [here] at sound
    refine ⟨?_, sound.2.2.2⟩
    unfold Left
    dsimp only
    rw [sound.2.1, sound.2.2.1]
    exact sound.1
  case perform outcome asked => exact sound_release sound asked

end Worker

end Renvor
