import Renvor.Foundation.TransitionSystem
import Renvor.Jobs.Job

/-! # The worker

A wrapper runs each claimed job: it spawns the handler as a task of its own, waits for it
under the handler's timeout, and records how it ended. At stop the worker waits for the
wrappers, then aborts the handlers' tasks, joins them, and gives back the leases of those
that ended. An abort is a request: a task that holds its thread does not end by it. Time is
not measured: what is bounded by a time may be over at any point.
-/

namespace Renvor

open Foundation

/-- The most jobs that a worker may run at once. -/
def maxConcurrency : Nat := 1024

/-- A worker's bound and the kinds it has handlers for. -/
structure Worker where
  concurrency : Nat
  positive : 0 < concurrency
  capped : concurrency ≤ maxConcurrency
  handlers : List JobKind

namespace Worker

/-- What a handler asks for when it fails: another attempt, or none. -/
inductive HandlerError
  | retry | abandon
  deriving DecidableEq

/-- How a handler's task ended. -/
inductive Ending
  | returned (result : Except HandlerError Unit)
  | panicked
  | cancelled
  deriving DecidableEq

/-- A handler's task: not spawned; running, and whether its abort was requested; or ended,
its future dropped. -/
inductive Task
  | none
  | running (aborted : Bool)
  | ended (ending : Ending)
  deriving DecidableEq

namespace Task

/-- The handler may still run. -/
def isRunning : Task → Bool
  | running _ => true
  | _ => false

/-- Ask a task that runs to be cancelled; any other stays as it ended. -/
def abort : Task → Task
  | running _ => running true
  | task => task

end Task

/-- Where the worker's table has a handler's task. -/
inductive HandlerTask
  | notStarted | running | terminated
  deriving DecidableEq

/-- How an attempt was settled in the end. -/
inductive Settled
  | recorded | abortedAtStop
  deriving DecidableEq

/-- How the handler's task ended from the wrapper's side; no failure is success. -/
inductive Attempt
  | ended (failure : Option FailureKind)
  | abortedAtStop
  deriving DecidableEq

/-- What is recorded of an ending. A task that was cancelled was aborted when the worker stopped. -/
def Ending.attempt : Ending → Attempt
  | returned (.ok ()) => .ended .none
  | returned (.error .retry) => .ended (some .handlerFailed)
  | returned (.error .abandon) => .ended (some .abandoned)
  | panicked => .ended (some .panicked)
  | cancelled => .abortedAtStop

/-- How giving a lease back ended. -/
inductive ReleaseOutcome
  | released | failed | timedOut
  deriving DecidableEq

/-- What became of a lease at stop: nothing; kept under a handler that may run; or a
release, with whether the store performed it and how it ended. -/
inductive Release
  | unasked
  | withheld
  | asked (performed : Bool) (outcome : Option ReleaseOutcome)
  deriving DecidableEq

/-- A release that has not ended. -/
def Release.open : Release → Bool
  | asked _ none => true
  | _ => false

/-- Where a wrapper stands. -/
inductive Wrapper
  -- the gate was closed, and there is no wrapper
  | refused
  | spawned
  -- the handler is spawned and not in the table yet
  | registering
  | waiting
  -- after the handler's timeout
  | joining
  | resolved (attempt : Attempt)
  | recording
  | settled (settled : Settled)
  | done (settled : Settled)
  -- ended by an abort or a panic
  | aborted
  deriving DecidableEq

namespace Wrapper

/-- The wrapper is gone, and with it its slot and its permit. -/
def gone : Wrapper → Bool
  | refused | done _ | aborted => true
  | _ => false

/-- An abort of the wrapper takes effect where it awaits, and what it awaits may panic. -/
def awaits : Wrapper → Bool
  | spawned | waiting | joining | recording => true
  | _ => false

end Wrapper

/-- What a store makes of a transition that is asked for. -/
inductive Transition
  | completed | rescheduled | deadLettered

/-- A failure that is not terminal reschedules while attempts remain. -/
def transition (job : Job) : Option FailureKind → Transition
  | none => .completed
  | some failure =>
      if failure.isTerminal || job.maxAttempts ≤ job.attempts then .deadLettered else .rescheduled

/-- One claimed job, with its entry in the table of running jobs. -/
structure Execution where
  claimed : ClaimedJob
  wrapper : Wrapper
  task : Task
  entry : Option HandlerTask
  -- a transition that was sent to the store, which may still perform it
  request : Option (Option FailureKind)
  release : Release
  deriving DecidableEq

/-- What happens to one claimed job. -/
inductive Move
  | start
  | register
  -- the handler's task ends by itself, or by its abort
  | finish (result : Except HandlerError Unit)
  | panic
  | drop
  | resolve
  | timeOut
  | rejoin
  | joinElapsed
  | mark
  -- the store performs the transition, and the wrapper has its answer
  | transact
  | answer
  | remove
  -- the store performs the release
  | perform

namespace Execution

/-- A job that is claimed, and whose wrapper has not run yet. -/
def fresh (claimed : ClaimedJob) : Execution :=
  ⟨claimed, .spawned, .none, some .notStarted, none, .unasked⟩

/-- A job that is claimed as the gate closes. -/
def givenBack (claimed : ClaimedJob) : Execution :=
  ⟨claimed, .refused, .none, none, none, .asked false none⟩

/-- Ask the store to settle the attempt. -/
def ask (execution : Execution) (failure : Option FailureKind) : Execution :=
  { execution with wrapper := .recording, request := some failure }

/-- Sets the handler of the entry, if there is one. -/
def setEntry (execution : Execution) (handler : HandlerTask) : Execution :=
  { execution with entry := execution.entry.map fun _ => handler }

/-- End the task of an execution, where it runs. -/
def endTask (execution : Execution) (ending : Ending) : Option Execution :=
  match execution.task with
  | .running _ => some { execution with task := .ended ending }
  | _ => none

/-- One step of a claimed job. -/
def move (worker : Worker) (stopping : Bool) (execution : Execution) : Move → Option Execution
  | .start => match execution.wrapper with
      | .spawned => some (
          if worker.handlers.contains execution.claimed.job.kind then
            { execution with wrapper := .registering, task := .running false }
          else execution.ask (some .abandoned))
      | _ => none
  | .register => match execution.wrapper with
      | .registering => some { execution.setEntry .running with
          wrapper := .waiting
          task := if stopping then execution.task.abort else execution.task }
      | _ => none
  | .finish result => execution.endTask (.returned result)
  | .panic => execution.endTask .panicked
  | .drop => match execution.task with
      | .running true => some { execution with task := .ended .cancelled }
      | _ => none
  | .resolve => match execution.wrapper, execution.task with
      | .waiting, .ended ending => some { execution with wrapper := .resolved ending.attempt }
      | _, _ => none
  | .timeOut => match execution.wrapper with
      | .waiting => some { execution with wrapper := .joining, task := execution.task.abort }
      | _ => none
  | .rejoin => match execution.wrapper, execution.task with
      | .joining, .ended _ =>
          some { execution with wrapper := .resolved (.ended (some .timedOut)) }
      | _, _ => none
  -- the attempt is recorded all the same
  | .joinElapsed => match execution.wrapper with
      | .joining => some (execution.ask (some .timedOut))
      | _ => none
  | .mark => match execution.wrapper with
      | .resolved (.ended failure) => some ((execution.setEntry .terminated).ask failure)
      | .resolved .abortedAtStop =>
          some { execution.setEntry .terminated with wrapper := .settled .abortedAtStop }
      | _ => none
  | .transact => match execution.request with
      | some _ => some { execution with request := none }
      | none => none
  | .answer => match execution.wrapper with
      | .recording => some { execution with wrapper := .settled .recorded }
      | _ => none
  | .remove => match execution.wrapper with
      | .settled .recorded => some { execution with wrapper := .done .recorded, entry := none }
      | .settled .abortedAtStop => some { execution with wrapper := .done .abortedAtStop }
      | _ => none
  | .perform => match execution.release with
      | .asked false outcome => some { execution with release := .asked true outcome }
      | _ => none

/-- The end of a wrapper by an abort or a panic, which leaves the handler's task to itself. -/
def cut (execution : Execution) : Option Execution :=
  if execution.wrapper.awaits then some { execution with wrapper := .aborted } else none

/-- What the sweep does to a job of the table. -/
def sweep (execution : Execution) : Execution :=
  match execution.entry with
  | some .running => { execution with task := execution.task.abort }
  | _ => execution

/-- Takes a job out of the table, and asks for its lease to be released unless its handler
may still run. -/
def drain (execution : Execution) : Execution :=
  match execution.entry with
  | none => execution
  | some .running => { execution with entry := none, release := .withheld }
  | some _ => { execution with entry := none, release := .asked false none }

/-- The end of a release; it is released only when the store confirmed it. -/
def conclude (execution : Execution) (outcome : ReleaseOutcome) : Option Execution :=
  match execution.release with
  | .asked performed none =>
      if outcome = .released ∧ performed = false then none
      else some { execution with release := .asked performed (some outcome) }
  | _ => none

end Execution

/-- Where the run of a worker stands. -/
inductive Phase
  | polling
  -- a job is claimed, and its permit is not taken yet
  | permitting (claimed : ClaimedJob)
  | givingBack
  | grace
  | joining
  | aborting
  | releasing
  | stopped
  deriving DecidableEq

/-- What a worker reports when it has stopped. -/
structure Report where
  claimed : Nat
  aborted : Nat
  released : Nat
  releaseFailed : Nat
  releaseTimedOut : Nat
  releaseWithheld : Nat
  deriving DecidableEq

/-- Count one release by how it ended. -/
def Report.record (report : Report) : ReleaseOutcome → Report
  | .released => { report with released := report.released + 1 }
  | .failed => { report with releaseFailed := report.releaseFailed + 1 }
  | .timedOut => { report with releaseTimedOut := report.releaseTimedOut + 1 }

/-- A run: each claimed job at the place of its claim. -/
structure State where
  phase : Phase
  executions : List Execution
  stopping : Bool
  report : Report
  deriving DecidableEq

/-- The steps of a worker and of what it waits for. -/
inductive Label
  | claim (claimed : ClaimedJob)
  | permit
  | refuse
  | cancel
  -- every wrapper is over within the grace, or the grace is over
  | graceful
  | sweep
  | joined
  | bound
  | aborted
  | move (key : Nat) (move : Move)
  -- a wrapper is aborted, or it panics
  | cut (key : Nat)
  | crash (key : Nat)
  | conclude (key : Nat) (outcome : ReleaseOutcome)
  | stop

namespace State

/-- A worker that has claimed nothing. -/
def start : State := ⟨.polling, [], false, ⟨0, 0, 0, 0, 0, 0⟩⟩

/-- The slots that are taken. -/
def slots (state : State) : Nat := state.executions.countP fun execution => !execution.wrapper.gone

/-- Every wrapper is over. -/
def quiet (state : State) : Bool := state.executions.all fun execution => execution.wrapper.gone

/-- Change one execution, where it is there and can be changed so. -/
def change (state : State) (key : Nat) (change : Execution → Option Execution) : Option State := do
  let execution ← state.executions[key]?
  let changed ← change execution
  return { state with executions := state.executions.set key changed }

/-- Drain the table: the leases in it are to be released, and those under a handler that may
still run are counted as withheld. -/
def drain (state : State) : State :=
  { state with
    phase := .releasing
    executions := state.executions.map Execution.drain
    report := { state.report with releaseWithheld := state.report.releaseWithheld +
      (state.executions.countP fun execution => execution.entry = some .running) } }

end State

/-- One step of a run. -/
def step (worker : Worker) (state : State) : Label → Option State
  | .claim claimed =>
      if state.phase = .polling ∧ state.slots < worker.concurrency then
        some { state with
          phase := .permitting claimed
          report := { state.report with claimed := state.report.claimed + 1 } }
      else none
  | .permit => match state.phase with
      | .permitting claimed => some { state with
          phase := .polling, executions := state.executions ++ [Execution.fresh claimed] }
      | _ => none
  | .refuse => match state.phase with
      | .permitting claimed => some { state with
          phase := .givingBack, executions := state.executions ++ [Execution.givenBack claimed] }
      | _ => none
  | .cancel => if state.phase = .polling then some { state with phase := .grace } else none
  | .graceful =>
      if state.phase = .grace ∧ state.quiet then some { state with phase := .stopped } else none
  | .sweep =>
      if state.phase = .grace then some { state with
        phase := .joining
        executions := state.executions.map Execution.sweep
        stopping := true
        report := { state.report with
          aborted := (state.executions.countP fun execution => execution.entry.isSome) } }
      else none
  | .joined => if state.phase = .joining ∧ state.quiet then some state.drain else none
  | .bound => if state.phase = .joining then some { state with phase := .aborting } else none
  | .aborted => if state.phase = .aborting ∧ state.quiet then some state.drain else none
  | .move key move => state.change key fun execution => execution.move worker state.stopping move
  | .cut key => if state.phase = .aborting then state.change key Execution.cut else none
  | .crash key => state.change key Execution.cut
  | .conclude key outcome => do
      let after ← state.change key fun execution => execution.conclude outcome
      return { after with
        phase := if state.phase = .givingBack then .grace else state.phase
        report := state.report.record outcome }
  | .stop =>
      if state.phase = .releasing ∧ state.executions.all (fun execution => !execution.release.open) then
        some { state with phase := .stopped }
      else none

/-- The runs of a worker. -/
def system (worker : Worker) : TransitionSystem State Label :=
  .stepping (· = State.start) worker.step

/-- The step makes a claimed job claimable again: the store reschedules it, or performs the
release of its lease. -/
def Reopens (state : State) (label : Label) (execution : Execution) : Prop :=
  ∃ key, state.executions[key]? = some execution ∧
    ((label = .move key .transact ∧
        execution.request.map (transition execution.claimed.job) = some .rescheduled) ∨
      (label = .move key .perform))

/-- A handler's task ends within the time it is joined for after its timeout. -/
def Joins (state : State) (label : Label) : Prop :=
  ∀ key execution, label = .move key .joinElapsed → state.executions[key]? = some execution →
    execution.task.isRunning = false

end Worker

end Renvor
