import Renvor.Foundation.TransitionSystem
import Renvor.Lifecycle.Drain
import Renvor.Provider.Resolve

/-! # Boot, shutdown and rollback

One application value moves through `boot` and `shutdown` calls, each awaited
before the next. Provider callbacks are asked for their outcome where the
kernel awaits them, and cancellation arrives from outside at any point.

A callback is called before the wrapper that contains its panics is polled, so
a panic in the call itself is not contained (`Renvor.Callback.awaited`).
-/

namespace Renvor

/-- What a provider does when its `initialise` or `stop` is called: the call
makes a future, and the kernel polls and then drops it. -/
inductive Callback
  | callPanics (message : String)
  | returns
  | fails (failure : String)
  | pollPanics (message : String)
  | hangs
  | dropPanics (message : String)

/-- What awaiting a callback under the provider deadline gives the kernel. -/
inductive Awaited
  | ready (failure : Option BoxedCause)
  | elapsed
  | unwound (message : String)
  deriving DecidableEq

/-- Awaits a contained callback under a deadline. Only a panic during a poll is
contained: the call is evaluated first, and the drop comes after. -/
def Callback.awaited : Callback → Awaited
  | .callPanics message => .unwound message
  | .returns => .ready none
  | .fails failure => .ready (some (.returned failure))
  | .pollPanics message => .ready (some (.panicked message))
  | .hangs => .elapsed
  | .dropPanics message => .unwound message

/-- A provider's initialisation scope, under the root scope. -/
structure ProviderScope where
  provider : ProviderId
  completed : Bool
  cancelled : Bool

/-- One initialised provider: where it is registered, and the scope it runs
under. -/
structure InitialisedProvider where
  position : Nat
  id : ProviderId
  scope : Nat

/-- What happened while unwinding: the providers whose `stop` was called, and
every failure. -/
structure RollbackReport where
  stopped : List ProviderId
  failures : List KernelError

/-- The outcome of one shutdown. -/
structure ShutdownReport where
  drain : DrainOutcome
  stop : RollbackReport

/-- The application: its resolved providers and what has been initialised. -/
structure Application where
  registry : ProviderRegistry
  order : InitialisationOrder
  cursor : PhaseCursor
  initialised : List InitialisedProvider
  scopes : List ProviderScope
  cancelled : Bool
  providerDeadlineMs : Nat
  shutdownDone : Bool
  shutdown : ShutdownReport

namespace Application

/-- Whether cancellation has been signalled, as the error it becomes. -/
def cancellationCheck (app : Application) : Option KernelError :=
  if app.cancelled then some (.cancelled app.cursor.current) else none

/-- Signals cancellation for one scope. -/
def cancelScope (app : Application) (scope : Nat) : Application :=
  { app with scopes := app.scopes.modify scope fun entry => { entry with cancelled := true } }

/-- The guard for one provider's initialisation. -/
def openScope (app : Application) (id : ProviderId) : Application :=
  { app with scopes := app.scopes ++ [⟨id, false, false⟩] }

/-- Initialisation finished: the guard is disarmed and the provider recorded. -/
def complete (app : Application) (position : Nat) (id : ProviderId) (scope : Nat) : Application :=
  { app with
    scopes := app.scopes.modify scope fun entry => { entry with completed := true }
    initialised := app.initialised ++ [⟨position, id, scope⟩] }

end Application

/-- What one stop adds to the report. -/
def RollbackReport.stop (report : RollbackReport) (id : ProviderId) (deadlineMs : Nat)
    (outcome : Awaited) : RollbackReport where
  stopped := report.stopped ++ [id]
  failures := report.failures ++ match outcome with
    | .ready none => []
    | .ready (some source) => [.providerStop id.name source]
    | .elapsed => [.deadlineExceeded s!"stop provider `{id.name}`" deadlineMs]
    | .unwound _ => []

/-- Why a rollback runs: a boot failed, with the guard of a provider that was
not registered still open, or the application is shut down. -/
inductive Unwinding
  | boot (origin : KernelError) (guard : Option Nat)
  | shutdown (drain : DrainOutcome)

/-- Where the calls on one application stand. -/
inductive Control
  /-- The caller holds the application. -/
  | idle
  /-- The head of the boot loop, with the entries left. -/
  | booting (entries : List (Nat × ProviderId))
  | initialising (position : Nat) (id : ProviderId) (scope : Nat)
      (entries : List (Nat × ProviderId))
  | draining
  /-- The providers left to stop, the next one first. -/
  | rollingBack (why : Unwinding) (entries : List InitialisedProvider) (report : RollbackReport)
  /-- Boot failed and consumed the application. -/
  | failed (origin : KernelError) (report : RollbackReport) (phases : List LifecyclePhase)
  /-- A panic unwound through boot and dropped the application. -/
  | dropped

/-- The application and the call in progress. -/
structure LifecycleState where
  app : Application
  control : Control

namespace LifecycleState

/-- Rolls back everything initialised; the collection is emptied at once. -/
def unwind (state : LifecycleState) (why : Unwinding) : LifecycleState where
  app := { state.app with initialised := [] }
  control := .rollingBack why state.app.initialised.reverse ⟨[], []⟩

/-- What boot does with the outcome of one initialisation. -/
def settleInitialise (state : LifecycleState) (position : Nat) (id : ProviderId) (scope : Nat)
    (entries : List (Nat × ProviderId)) : Awaited → LifecycleState
  | .ready none => ⟨state.app.complete position id scope, .booting entries⟩
  | .ready (some source) =>
      unwind ⟨state.app.cancelScope scope, state.control⟩
        (.boot (.providerInit id.name source) none)
  | .elapsed =>
      unwind ⟨state.app.cancelScope scope, state.control⟩
        (.boot (.deadlineExceeded s!"initialise provider `{id.name}`"
          state.app.providerDeadlineMs) none)
  | .unwound _ => ⟨state.app.cancelScope scope, .dropped⟩

/-- What a rollback does with the outcome of one stop. A panic that unwinds
drops the rest of the collection with it. -/
def settleStop (state : LifecycleState) (why : Unwinding) (entry : InitialisedProvider)
    (entries : List InitialisedProvider) (report : RollbackReport) : Awaited → LifecycleState
  | .unwound _ =>
      match why with
      | .boot _ guard => ⟨(guard.elim state.app state.app.cancelScope), .dropped⟩
      | .shutdown _ => ⟨state.app, .idle⟩
  | outcome =>
      ⟨state.app.cancelScope entry.scope, .rollingBack why entries
        (report.stop entry.id state.app.providerDeadlineMs outcome)⟩

/-- The rollback is over: boot returns its failure, and shutdown cancels the
root scope and keeps the report. -/
def settleRollback (state : LifecycleState) (report : RollbackReport) :
    Unwinding → LifecycleState
  | .boot origin guard =>
      ⟨guard.elim state.app state.app.cancelScope,
        .failed origin report state.app.cursor.log⟩
  | .shutdown drain =>
      ⟨{ state.app with cancelled := true, shutdown := ⟨drain, report⟩ }, .idle⟩

end LifecycleState

/-- What happens to one application, step by step. -/
inductive LifecycleEvent
  | cancel
  | cancelScope (scope : Nat)
  | boot
  | initialise (position : Nat) (callback : Callback)
  | stop (position : Nat) (callback : Callback)
  | shutdown
  | drained (outcome : DrainOutcome)
  /-- A step of the kernel between two awaits. -/
  | proceed

open LifecycleState in
/-- The steps of one application. -/
inductive LifecycleStep : LifecycleState → LifecycleEvent → LifecycleState → Prop
  | cancel (app : Application) (control : Control) :
      LifecycleStep ⟨app, control⟩ .cancel ⟨{ app with cancelled := true }, control⟩
  | cancelScope (app : Application) (control : Control) (scope : Nat) :
      LifecycleStep ⟨app, control⟩ (.cancelScope scope) ⟨app.cancelScope scope, control⟩
  | boot (app : Application) :
      LifecycleStep ⟨app, .idle⟩ .boot
        ⟨{ app with cursor := app.cursor.advance }, .booting app.order.order⟩
  /-- Cancellation is seen before the next provider, or before `Ready`. -/
  | cancelled {app : Application} {entries : List (Nat × ProviderId)} {origin : KernelError}
      (signalled : app.cancellationCheck = some origin) :
      LifecycleStep ⟨app, .booting entries⟩ .proceed
        (unwind ⟨app, .booting entries⟩ (.boot origin none))
  | initialise {app : Application} {position : Nat} {id : ProviderId} {provider : Provider}
      {entries : List (Nat × ProviderId)} (live : app.cancellationCheck = none)
      (registered : app.registry.get position = some provider) :
      LifecycleStep ⟨app, .booting ((position, id) :: entries)⟩ .proceed
        ⟨app.openScope id, .initialising position id app.scopes.length entries⟩
  | unregistered {app : Application} {position : Nat} {id : ProviderId}
      {entries : List (Nat × ProviderId)} (live : app.cancellationCheck = none)
      (absent : app.registry.get position = none) :
      LifecycleStep ⟨app, .booting ((position, id) :: entries)⟩ .proceed
        (unwind ⟨app.openScope id, .booting entries⟩ (.boot (.dependencyMissing id.name
          s!"<registration position {position} is not registered>") (some app.scopes.length)))
  | initialised (app : Application) (position : Nat) (id : ProviderId) (scope : Nat)
      (entries : List (Nat × ProviderId)) (callback : Callback) :
      LifecycleStep ⟨app, .initialising position id scope entries⟩ (.initialise position callback)
        (settleInitialise ⟨app, .initialising position id scope entries⟩ position id scope entries
          callback.awaited)
  | ready {app : Application} (live : app.cancellationCheck = none) :
      LifecycleStep ⟨app, .booting []⟩ .proceed
        ⟨{ app with cursor := app.cursor.advance }, .idle⟩
  | shutdown {app : Application} (first : app.shutdownDone = false) :
      LifecycleStep ⟨app, .idle⟩ .shutdown
        ⟨{ app with shutdownDone := true, cursor := app.cursor.skipTo .drain }, .draining⟩
  /-- A repeated shutdown returns the report it kept. -/
  | shutdownAgain {app : Application} (again : app.shutdownDone = true) :
      LifecycleStep ⟨app, .idle⟩ .shutdown ⟨app, .idle⟩
  | drained (app : Application) (outcome : DrainOutcome) :
      LifecycleStep ⟨app, .draining⟩ (.drained outcome)
        (unwind ⟨{ app with cursor := app.cursor.skipTo .stop }, .draining⟩ (.shutdown outcome))
  | stop {app : Application} {why : Unwinding} {entry : InitialisedProvider}
      {entries : List InitialisedProvider} {report : RollbackReport} {provider : Provider}
      (registered : app.registry.get entry.position = some provider) (callback : Callback) :
      LifecycleStep ⟨app, .rollingBack why (entry :: entries) report⟩
        (.stop entry.position callback)
        (settleStop ⟨app, .rollingBack why (entry :: entries) report⟩ why entry entries report
          callback.awaited)
  | stopUnregistered {app : Application} {why : Unwinding} {entry : InitialisedProvider}
      {entries : List InitialisedProvider} {report : RollbackReport}
      (absent : app.registry.get entry.position = none) :
      LifecycleStep ⟨app, .rollingBack why (entry :: entries) report⟩ .proceed
        ⟨app, .rollingBack why entries { report with failures := report.failures ++
          [.providerStop entry.id.name (.noted "the provider is no longer registered")] }⟩
  | rolledBack (app : Application) (why : Unwinding) (report : RollbackReport) :
      LifecycleStep ⟨app, .rollingBack why [] report⟩ .proceed
        (settleRollback ⟨app, .rollingBack why [] report⟩ report why)

/-- An application as the builder leaves it: resolved, in the third phase, with
nothing initialised. -/
structure Built (tarjanScc : ResolverGraph → Traversal) (state : LifecycleState) : Prop where
  resolved : ∃ report, state.app.registry.resolve tarjanScc = .ok (state.app.order, report)
  cursor : state.app.cursor = PhaseCursor.start.advance.advance
  initialised : state.app.initialised = []
  scopes : state.app.scopes = []
  cancelled : state.app.cancelled = false
  running : state.app.shutdownDone = false
  shutdown : state.app.shutdown = ⟨.clean, ⟨[], []⟩⟩
  control : state.control = .idle

/-- Every sequence of calls on one built application. -/
def lifecycleSystem (tarjanScc : ResolverGraph → Traversal) :
    Foundation.TransitionSystem LifecycleState LifecycleEvent where
  Initial := Built tarjanScc
  Step := LifecycleStep

end Renvor
