import Renvor.Lifecycle.Application

/-! # Every initialised provider is stopped once

The run of an application is read as two lists: the positions whose
`initialise` succeeded, and the positions whose `stop` was called. In every run
without an uncontained panic and without a second boot of a running application
the first list, reversed, is what has been stopped followed by what is left to
stop (`Renvor.LifecycleState.Kept`).
-/

namespace Renvor

namespace LifecycleEvent

/-- The position whose initialisation completed. -/
def initialised : LifecycleEvent → Option Nat
  | .initialise position callback =>
      if callback.awaited = .ready none then some position else none
  | _ => none

/-- The position whose stop was called. -/
def stopped : LifecycleEvent → Option Nat
  | .stop position _ => some position
  | _ => none

/-- The completed initialisations of a run, in order. -/
def initialisations (events : List LifecycleEvent) : List Nat := events.filterMap initialised

/-- The stop calls of a run, in order. -/
def stops (events : List LifecycleEvent) : List Nat := events.filterMap stopped

theorem initialisations_snoc (events : List LifecycleEvent) (event : LifecycleEvent) :
    initialisations (events ++ [event]) = initialisations events ++ event.initialised.toList := by
  rw [initialisations, List.filterMap_append]
  cases found : event.initialised <;> simp [initialisations, found]

theorem stops_snoc (events : List LifecycleEvent) (event : LifecycleEvent) :
    stops (events ++ [event]) = stops events ++ event.stopped.toList := by
  rw [stops, List.filterMap_append]
  cases found : event.stopped <;> simp [stops, found]

end LifecycleEvent

namespace LifecycleState

open LifecycleEvent

/-- No provider panics outside the poll of its future, and boot is not called
on an application that holds initialised providers, unless it is cancelled. -/
def Regular (state : LifecycleState) : LifecycleEvent → Prop
  | .boot => state.app.initialised = [] ∨ state.app.cancelled = true
  | .initialise _ callback | .stop _ callback => ∀ message, callback.awaited ≠ .unwound message
  | _ => True

/-- The providers left to stop, the next one first. -/
def remaining (state : LifecycleState) : List InitialisedProvider :=
  match state.control with
  | .rollingBack _ entries _ => entries
  | _ => state.app.initialised.reverse

/-- The scope whose guard is still armed. -/
def openGuard (state : LifecycleState) : Option Nat :=
  match state.control with
  | .initialising _ _ scope _ => some scope
  | .rollingBack (.boot _ guard) _ _ => guard
  | _ => none

/-- The application is over: boot has failed or unwound, or shutdown has
returned. -/
def Settled (state : LifecycleState) : Prop :=
  match state.control with
  | .failed .. | .dropped => True
  | .idle => state.app.shutdownDone = true
  | _ => False

/-- Every scope whose initialisation has not completed is cancelled, but for
the one whose guard is armed. -/
def Guarded (scopes : List ProviderScope) (guard : Option Nat) : Prop :=
  ∀ scope entry, scopes[scope]? = some entry → entry.completed = false →
    entry.cancelled = true ∨ guard = some scope

/-- What holds at each place of the control, when these providers have been
initialised and these stopped. -/
def Fits (inits stopped : List Nat) (state : LifecycleState) : Prop :=
  match state.control with
  | .idle => (state.app.shutdownDone = false → stopped = []) ∧
      (state.app.shutdownDone = true → state.app.cancelled = true ∧ state.app.initialised = [])
  | .booting entries => (∀ entry ∈ entries, (state.app.registry.get entry.1).isSome) ∧
      (state.app.shutdownDone = false → stopped = []) ∧
      (state.app.shutdownDone = true → state.app.cancelled = true ∧ state.app.initialised = []) ∧
      (state.app.cancelled = false → (inits ++ entries.map Prod.fst).Nodup)
  | .initialising position _ _ entries =>
      (∀ entry ∈ entries, (state.app.registry.get entry.1).isSome) ∧
      (state.app.registry.get position).isSome ∧ stopped = [] ∧
      state.app.shutdownDone = false ∧ (inits ++ position :: entries.map Prod.fst).Nodup
  | .draining => state.app.shutdownDone = true
  | .rollingBack why _ _ => state.app.initialised = [] ∧
      (∀ drain, why = .shutdown drain → state.app.shutdownDone = true)
  | .failed .. => state.app.initialised = []
  | .dropped => False

/-- What a regular run keeps. -/
structure Kept (inits stopped : List Nat) (state : LifecycleState) : Prop where
  ordered : state.app.cursor.Ordered
  known : ∀ entry ∈ state.app.order.order, (state.app.registry.get entry.1).isSome
  distinct : state.app.order.positions.Nodup
  accounted : inits.reverse = stopped ++ state.remaining.map InitialisedProvider.position
  once : inits.Nodup
  registered : ∀ entry ∈ state.remaining, (state.app.registry.get entry.position).isSome
  guarded : Guarded state.app.scopes state.openGuard
  fits : state.Fits inits stopped

/-! ## Scopes -/

/-- An entry of a modified list is the modified one, or another entry. -/
private theorem getElem?_modify_cases {scopes : List ProviderScope} {scope other : Nat}
    {entry : ProviderScope} {change : ProviderScope → ProviderScope}
    (found : (scopes.modify scope change)[other]? = some entry) :
    (scope = other ∧ ∃ before, scopes[other]? = some before ∧ entry = change before) ∨
      (scope ≠ other ∧ scopes[other]? = some entry) := by
  rw [List.getElem?_modify] at found
  obtain ⟨before, stood, changed⟩ := Option.map_eq_some_iff.mp found
  by_cases same : scope = other
  · rw [if_pos same] at changed
    exact Or.inl ⟨same, before, stood, changed.symm⟩
  · rw [if_neg same] at changed
    exact Or.inr ⟨same, changed ▸ stood⟩

namespace Guarded

variable {scopes : List ProviderScope} {guard : Option Nat}

theorem cancel (guarded : Guarded scopes guard) (scope : Nat) :
    Guarded (scopes.modify scope fun entry => { entry with cancelled := true }) guard := by
  intro other entry found unfinished
  rcases getElem?_modify_cases found with ⟨_, before, _, rfl⟩ | ⟨_, stood⟩
  · exact Or.inl rfl
  · exact guarded other entry stood unfinished

/-- Dropping the armed guard cancels its scope. -/
theorem drop {scope : Nat} (guarded : Guarded scopes (some scope)) :
    Guarded (scopes.modify scope fun entry => { entry with cancelled := true }) none := by
  intro other entry found unfinished
  rcases getElem?_modify_cases found with ⟨_, before, _, rfl⟩ | ⟨different, stood⟩
  · exact Or.inl rfl
  · rcases guarded other entry stood unfinished with cancelled | armed
    · exact Or.inl cancelled
    · exact (different (Option.some.inj armed)).elim

/-- Completing the armed scope disarms the guard. -/
theorem complete {scope : Nat} (guarded : Guarded scopes (some scope)) :
    Guarded (scopes.modify scope fun entry => { entry with completed := true }) none := by
  intro other entry found unfinished
  rcases getElem?_modify_cases found with ⟨_, before, _, rfl⟩ | ⟨different, stood⟩
  · cases unfinished
  · rcases guarded other entry stood unfinished with cancelled | armed
    · exact Or.inl cancelled
    · exact (different (Option.some.inj armed)).elim

/-- A new scope is the armed one. -/
theorem openScope (guarded : Guarded scopes none) (entry : ProviderScope) :
    Guarded (scopes ++ [entry]) (some scopes.length) := by
  intro other found listed unfinished
  by_cases earlier : other < scopes.length
  · rw [List.getElem?_append_left earlier] at listed
    rcases guarded other found listed unfinished with cancelled | armed
    · exact Or.inl cancelled
    · cases armed
  · have within := (List.getElem?_eq_some_iff.mp listed).1
    rw [List.length_append, List.length_singleton] at within
    exact Or.inr (congrArg some (by omega))

end Guarded

/-! ## Regular steps -/

variable {inits stopped : List Nat} {app : Application} {control : Control}

/-- Starting a rollback leaves the initialised providers to stop. -/
private theorem Kept.unwind {entered : Control} (kept : Kept inits stopped ⟨app, control⟩)
    (whole : remaining ⟨app, control⟩ = app.initialised.reverse) {scopes : List ProviderScope}
    {why : Unwinding}
    (guarded : Guarded scopes (openGuard ⟨app, .rollingBack why [] ⟨[], []⟩⟩))
    (done : ∀ drain, why = .shutdown drain → app.shutdownDone = true) :
    Kept inits stopped (unwind ⟨{ app with scopes := scopes }, entered⟩ why) where
  ordered := kept.ordered
  known := kept.known
  distinct := kept.distinct
  accounted := by
    have accounted := kept.accounted
    rw [whole] at accounted
    exact accounted
  once := kept.once
  registered := by
    have registered := kept.registered
    rw [whole] at registered
    exact registered
  guarded := by cases why <;> exact guarded
  fits := ⟨rfl, done⟩

/-- A regular initialisation either completes, or cancels its scope and starts
the rollback. -/
private theorem Kept.initialise {position : Nat} {id : ProviderId} {scope : Nat}
    {entries : List (Nat × ProviderId)}
    (kept : Kept inits stopped ⟨app, .initialising position id scope entries⟩)
    (callback : Callback) (regular : ∀ message, callback.awaited ≠ .unwound message) :
    Kept (inits ++ (LifecycleEvent.initialised (.initialise position callback)).toList) stopped
      (settleInitialise ⟨app, .initialising position id scope entries⟩ position id scope entries
        callback.awaited) := by
  obtain ⟨known, registered, none, running, distinct⟩ := kept.fits
  rw [LifecycleEvent.initialised]
  cases outcome : callback.awaited with
  | unwound message => exact (regular message outcome).elim
  | elapsed =>
      rw [if_neg (by simp), Option.toList_none, List.append_nil]
      exact kept.unwind rfl kept.guarded.drop (by simp)
  | ready failure =>
      cases failure with
      | some source =>
          rw [if_neg (by simp), Option.toList_none, List.append_nil]
          exact kept.unwind rfl kept.guarded.drop (by simp)
      | none =>
          rw [if_pos rfl, Option.toList_some]
          have accounted := kept.accounted
          simp only [remaining, none, List.nil_append] at accounted
          refine ⟨kept.ordered, kept.known, kept.distinct, ?_, ?_, ?_, kept.guarded.complete,
            known, fun _ => none, fun done => ?_, fun _ => ?_⟩
          · simp only [settleInitialise, Application.complete, remaining, none,
              List.reverse_append, List.nil_append, accounted]
            simp
          · exact (List.append_cons _ _ _ ▸ distinct).of_append_left
          · intro entry listed
            rcases List.mem_append.mp (List.mem_reverse.mp listed) with before | now
            · exact kept.registered entry (List.mem_reverse.mpr before)
            · rw [List.mem_singleton.mp now]
              exact registered
          · rw [show app.shutdownDone = true from done] at running
            cases running
          · rw [← List.append_cons]
            exact distinct

/-- A regular stop stops the next provider left to stop. -/
private theorem Kept.stop {why : Unwinding} {entry : InitialisedProvider}
    {entries : List InitialisedProvider} {report : RollbackReport}
    (kept : Kept inits stopped ⟨app, .rollingBack why (entry :: entries) report⟩)
    (callback : Callback) (regular : ∀ message, callback.awaited ≠ .unwound message) :
    Kept inits (stopped ++ [entry.position])
      (settleStop ⟨app, .rollingBack why (entry :: entries) report⟩ why entry entries report
        callback.awaited) := by
  have settles : settleStop ⟨app, .rollingBack why (entry :: entries) report⟩ why entry entries
      report callback.awaited = ⟨app.cancelScope entry.scope, .rollingBack why entries
        (report.stop entry.id app.providerDeadlineMs callback.awaited)⟩ := by
    cases outcome : callback.awaited with
    | unwound message => exact (regular message outcome).elim
    | elapsed | ready => rfl
  rw [settles]
  refine ⟨kept.ordered, kept.known, kept.distinct, ?_, kept.once, ?_, ?_, kept.fits⟩
  · rw [kept.accounted, List.append_assoc]
    rfl
  · exact fun other listed => kept.registered other (List.mem_cons_of_mem _ listed)
  · cases why <;> exact kept.guarded.cancel entry.scope

/-- The end of a rollback drops the guard that is still armed. -/
private theorem Kept.rolledBack {why : Unwinding} {report : RollbackReport}
    (kept : Kept inits stopped ⟨app, .rollingBack why [] report⟩) :
    Kept inits stopped (settleRollback ⟨app, .rollingBack why [] report⟩ report why) := by
  obtain ⟨empty, done⟩ := kept.fits
  have accounted : inits.reverse = stopped ++ (app.initialised.reverse).map
      InitialisedProvider.position := by
    have before := kept.accounted
    simp only [remaining, List.map_nil, List.append_nil] at before
    simp only [show app.initialised = [] from empty, before, List.reverse_nil, List.map_nil,
      List.append_nil]
  have registered : ∀ entry ∈ app.initialised.reverse, (app.registry.get entry.position).isSome := by
    simp [show app.initialised = [] from empty]
  cases why with
  | shutdown drain =>
      refine ⟨kept.ordered, kept.known, kept.distinct, accounted, kept.once, registered,
        kept.guarded, fun running => ?_, fun _ => ⟨rfl, empty⟩⟩
      cases (done drain rfl).symm.trans running
  | boot origin guard =>
      cases guard with
      | none =>
          exact ⟨kept.ordered, kept.known, kept.distinct, accounted, kept.once, registered,
            kept.guarded, empty⟩
      | some scope =>
          exact ⟨kept.ordered, kept.known, kept.distinct, accounted, kept.once, registered,
            kept.guarded.drop, empty⟩

/-- Cancelling the root scope keeps the account, whatever is in progress. -/
private theorem Kept.cancel (kept : Kept inits stopped ⟨app, control⟩) :
    Kept inits stopped ⟨{ app with cancelled := true }, control⟩ := by
  refine ⟨kept.ordered, kept.known, kept.distinct, ?_, kept.once, ?_, kept.guarded, ?_⟩
  · cases control <;> exact kept.accounted
  · cases control <;> exact kept.registered
  · have fits := kept.fits
    cases control with
    | idle => exact ⟨fits.1, fun done => ⟨rfl, (fits.2 done).2⟩⟩
    | booting entries =>
        exact ⟨fits.1, fits.2.1, fun done => ⟨rfl, (fits.2.2.1 done).2⟩, fun live => by cases live⟩
    | initialising | draining | rollingBack | failed | dropped => exact fits

private theorem Kept.cancelScope (kept : Kept inits stopped ⟨app, control⟩) (scope : Nat) :
    Kept inits stopped ⟨app.cancelScope scope, control⟩ := by
  refine ⟨kept.ordered, kept.known, kept.distinct, ?_, kept.once, ?_, ?_, ?_⟩
  · cases control <;> exact kept.accounted
  · cases control <;> exact kept.registered
  · exact kept.guarded.cancel scope
  · cases control <;> exact kept.fits

/-- **Every regular step keeps the account** of what was initialised and what
was stopped. -/
theorem Kept.step {before after : LifecycleState} {event : LifecycleEvent}
    (kept : Kept inits stopped before) (step : LifecycleStep before event after)
    (regular : before.Regular event) :
    Kept (inits ++ event.initialised.toList) (stopped ++ event.stopped.toList) after := by
  have quiet : event.initialised = none → event.stopped = none → Kept inits stopped after →
      Kept (inits ++ event.initialised.toList) (stopped ++ event.stopped.toList) after := by
    intro noInit noStop same
    simpa only [noInit, noStop, Option.toList_none, List.append_nil] using same
  cases step with
  | initialised app position id scope entries callback =>
      simpa [LifecycleEvent.stopped] using kept.initialise callback regular
  | stop registered callback =>
      simpa [LifecycleEvent.initialised, LifecycleEvent.stopped] using kept.stop callback regular
  | cancel app control =>
      exact quiet rfl rfl kept.cancel
  | cancelScope app control scope =>
      exact quiet rfl rfl (kept.cancelScope scope)
  | boot app =>
      apply quiet rfl rfl
      obtain ⟨running, finished⟩ := kept.fits
      refine ⟨kept.ordered.advance, kept.known, kept.distinct, kept.accounted, kept.once,
        kept.registered, kept.guarded, kept.known, running, finished, ?_⟩
      intro live
      have fresh : app.initialised = [] := by
        rcases regular with empty | cancelled
        · exact empty
        · cases cancelled.symm.trans live
      have none : stopped = [] := by
        apply running
        cases done : app.shutdownDone with
        | false => rfl
        | true => cases (finished done).1.symm.trans live
      have accounted := kept.accounted
      simp only [remaining, fresh, none, List.reverse_nil, List.map_nil, List.append_nil,
        List.reverse_eq_nil_iff] at accounted
      rw [accounted, List.nil_append]
      exact kept.distinct
  | cancelled signalled =>
      apply quiet rfl rfl
      exact kept.unwind rfl kept.guarded (by simp)
  | @initialise app position id provider entries live found =>
      apply quiet rfl rfl
      obtain ⟨known, running, finished, distinct⟩ := kept.fits
      have uncancelled : app.cancelled = false := by
        simpa [Application.cancellationCheck] using live
      have up : app.shutdownDone = false := by
        cases done : app.shutdownDone with
        | false => rfl
        | true => cases (finished done).1.symm.trans uncancelled
      exact ⟨kept.ordered, kept.known, kept.distinct, kept.accounted, kept.once, kept.registered,
        kept.guarded.openScope _, fun entry listed => known entry (List.mem_cons_of_mem _ listed),
        known _ List.mem_cons_self, running up, up, distinct uncancelled⟩
  | @unregistered app position id entries live absent =>
      have known := kept.fits.1 _ List.mem_cons_self
      rw [absent] at known
      cases known
  | @ready app live =>
      apply quiet rfl rfl
      exact ⟨kept.ordered.advance, kept.known, kept.distinct, kept.accounted, kept.once,
        kept.registered, kept.guarded, kept.fits.2.1, kept.fits.2.2.1⟩
  | shutdown first =>
      apply quiet rfl rfl
      exact ⟨kept.ordered.skipTo _, kept.known, kept.distinct, kept.accounted, kept.once,
        kept.registered, kept.guarded, rfl⟩
  | shutdownAgain again => exact quiet rfl rfl kept
  | drained app outcome =>
      apply quiet rfl rfl
      have entered : Kept inits stopped ⟨{ app with cursor := app.cursor.skipTo .stop }, .draining⟩ :=
        ⟨kept.ordered.skipTo _, kept.known, kept.distinct, kept.accounted, kept.once,
          kept.registered, kept.guarded, kept.fits⟩
      exact entered.unwind rfl kept.guarded fun _ _ => kept.fits
  | stopUnregistered absent =>
      have known := kept.registered _ List.mem_cons_self
      rw [absent] at known
      cases known
  | rolledBack app why report =>
      exact quiet rfl rfl kept.rolledBack

/-- A built application has nothing to account for. -/
theorem Built.kept {tarjanScc : ResolverGraph → Traversal} {state : LifecycleState}
    (passes : ∀ size graph, state.app.registry.declaredGraph = .ok (size, graph) →
      TarjanPass graph (tarjanScc graph)) (built : Built tarjanScc state) :
    Kept [] [] state := by
  rcases state with ⟨app, control⟩
  obtain ⟨⟨report, resolved⟩, cursor, initialised, scopes, _, running, _, rfl⟩ := built
  obtain ⟨permutation, _⟩ := ProviderRegistry.resolve_ordered passes resolved
  have known : ∀ entry ∈ app.order.order, (app.registry.get entry.1).isSome := by
    intro entry listed
    have position := permutation.mem_iff.mp (List.mem_map_of_mem listed)
    exact Option.isSome_iff_exists.mpr ⟨_, List.getElem?_eq_getElem (List.mem_range.mp position)⟩
  refine ⟨?_, known, permutation.nodup_iff.mpr List.nodup_range, ?_, List.nodup_nil, ?_, ?_,
    fun _ => rfl, fun done => ?_⟩
  · rw [show app.cursor = _ from cursor]
    exact PhaseCursor.start_ordered.advance.advance
  · simp [remaining, show app.initialised = [] from initialised]
  · simp [remaining, show app.initialised = [] from initialised]
  · simp [Guarded, show app.scopes = [] from scopes]
  · cases running.symm.trans done

/-- **A regular run keeps the account.** -/
theorem Kept.run {tarjanScc : ResolverGraph → Traversal} {first last : LifecycleState}
    {events : List LifecycleEvent}
    (run : ((lifecycleSystem tarjanScc).restrict Regular).Run first events last)
    (kept : Kept [] [] first) : Kept (initialisations events) (stops events) last := by
  induction run with
  | refl => exact kept
  | snoc _ step ih =>
      rw [initialisations_snoc, stops_snoc]
      exact ih.step step.1 step.2

/-! ## Calls end -/

/-- What the call in progress has left to do at most. -/
def effort (state : LifecycleState) : Nat :=
  match state.control with
  | .booting entries => 3 * entries.length + state.app.initialised.length + 3
  | .initialising _ _ _ entries => 3 * entries.length + state.app.initialised.length + 5
  | .draining => state.app.initialised.length + 2
  | .rollingBack _ entries _ => entries.length + 1
  | .idle | .failed .. | .dropped => 0

/-- A step of the call in progress, and not one from outside. -/
def Own : LifecycleEvent → Prop
  | .initialise .. | .stop .. | .drained _ | .proceed => True
  | _ => False

/-- **Every step of a call leaves it less to do.** -/
theorem effort_step {before after : LifecycleState} {event : LifecycleEvent}
    (step : LifecycleStep before event after) (own : Own event) : after.effort < before.effort := by
  cases step with
  | cancel | cancelScope | boot | shutdown | shutdownAgain => exact own.elim
  | cancelled =>
      simp only [unwind, effort, List.length_reverse]
      omega
  | initialise =>
      simp only [effort, Application.openScope, List.length_cons]
      omega
  | unregistered =>
      simp only [unwind, effort, Application.openScope, List.length_reverse, List.length_cons]
      omega
  | initialised app position id scope entries callback =>
      cases callback.awaited with
      | unwound => simp [settleInitialise, effort]
      | elapsed =>
          simp only [settleInitialise, unwind, effort, Application.cancelScope,
            List.length_reverse]
          omega
      | ready failure =>
          cases failure <;>
            simp only [settleInitialise, unwind, effort, Application.cancelScope,
              Application.complete, List.length_reverse, List.length_append,
              List.length_singleton] <;>
            omega
  | ready => simp [effort]
  | drained =>
      simp only [unwind, effort, List.length_reverse]
      omega
  | @stop app why entry entries report provider registered callback =>
      cases callback.awaited with
      | unwound => cases why <;> simp [settleStop, effort]
      | elapsed | ready => simp [settleStop, effort]
  | stopUnregistered => simp [effort]
  | rolledBack app why => cases why <;> simp [settleRollback, effort]

/-- **A call in progress is never stuck**: it has a regular step to take. -/
theorem effort_progress {state : LifecycleState} (busy : state.effort ≠ 0) :
    ∃ event after, LifecycleStep state event after ∧ Own event ∧ state.Regular event := by
  rcases state with ⟨app, control⟩
  cases control with
  | idle | failed | dropped => exact (busy rfl).elim
  | booting entries =>
      cases signalled : app.cancellationCheck with
      | some origin => exact ⟨_, _, .cancelled signalled, trivial, trivial⟩
      | none =>
          cases entries with
          | nil => exact ⟨_, _, .ready signalled, trivial, trivial⟩
          | cons entry entries =>
              cases registered : app.registry.get entry.1 with
              | none => exact ⟨_, _, .unregistered signalled registered, trivial, trivial⟩
              | some provider => exact ⟨_, _, .initialise signalled registered, trivial, trivial⟩
  | initialising position id scope entries =>
      exact ⟨_, _, .initialised app position id scope entries .returns, trivial,
        by simp [Regular, Callback.awaited]⟩
  | draining => exact ⟨_, _, .drained app .clean, trivial, trivial⟩
  | rollingBack why entries report =>
      cases entries with
      | nil => exact ⟨_, _, .rolledBack app why report, trivial, trivial⟩
      | cons entry entries =>
          cases registered : app.registry.get entry.position with
          | none => exact ⟨_, _, .stopUnregistered registered, trivial, trivial⟩
          | some provider =>
              exact ⟨_, _, .stop registered .returns, trivial,
                by simp [Regular, Callback.awaited]⟩

/-! ## After shutdown -/

/-- The application has been shut down, and whatever boot is called on it finds
the root scope cancelled. -/
structure Over (state : LifecycleState) : Prop where
  cancelled : state.app.cancelled = true
  empty : state.app.initialised = []
  done : state.app.shutdownDone = true
  place : state.control = .idle ∨ (∃ entries, state.control = .booting entries) ∨
    (∃ phase report, state.control = .rollingBack (.boot (.cancelled phase) none) [] report) ∨
    ∃ phase report phases, state.control = .failed (.cancelled phase) report phases

/-- Nothing is initialised and nothing stopped once an application is over, and
a boot called then does not give the application back. -/
theorem Over.step {before after : LifecycleState} {event : LifecycleEvent} (finished : before.Over)
    (step : LifecycleStep before event after) :
    after.Over ∧ event.initialised = none ∧ event.stopped = none ∧
      (event = .boot ∨ before.control ≠ .idle → after.control ≠ .idle) := by
  have live : before.app.cancellationCheck = some (.cancelled before.app.cursor.current) := by
    rw [Application.cancellationCheck, finished.cancelled, if_pos rfl]
  cases step with
  | cancel app control =>
      exact ⟨⟨rfl, finished.empty, finished.done, finished.place⟩, rfl, rfl, by simp⟩
  | cancelScope app control scope =>
      exact ⟨⟨finished.cancelled, finished.empty, finished.done, finished.place⟩, rfl, rfl, by simp⟩
  | boot app =>
      exact ⟨⟨finished.cancelled, finished.empty, finished.done, Or.inr (Or.inl ⟨_, rfl⟩)⟩, rfl, rfl,
        by simp⟩
  | @cancelled app entries origin signalled =>
      rw [live] at signalled
      cases signalled
      refine ⟨⟨finished.cancelled, rfl, finished.done,
        Or.inr (Or.inr (Or.inl ⟨app.cursor.current, ⟨[], []⟩, ?_⟩))⟩, rfl, rfl, by simp [unwind]⟩
      simp only [unwind, show app.initialised = [] from finished.empty, List.reverse_nil]
  | initialise unsignalled | unregistered unsignalled | ready unsignalled =>
      rw [live] at unsignalled
      cases unsignalled
  | shutdown first => cases finished.done.symm.trans first
  | shutdownAgain again => exact ⟨finished, rfl, rfl, by simp⟩
  | initialised | drained | stop | stopUnregistered => simpa using finished.place
  | rolledBack app why report =>
      rcases finished.place with idle | ⟨_, booting⟩ | ⟨phase, _, rolling⟩ | ⟨_, _, _, failed⟩
      · cases idle
      · cases booting
      · cases rolling
        exact ⟨⟨finished.cancelled, finished.empty, finished.done,
          Or.inr (Or.inr (Or.inr ⟨phase, report, _, rfl⟩))⟩, rfl, rfl, by simp [settleRollback]⟩
      · cases failed

/-- A shut-down application stays over, and boot fails on it. -/
theorem Over.run {tarjanScc : ResolverGraph → Traversal} {first last : LifecycleState}
    {events : List LifecycleEvent} (finished : first.Over)
    (run : (lifecycleSystem tarjanScc).Run first events last) :
    last.Over ∧ initialisations events = [] ∧ stops events = [] ∧
      (.boot ∈ events → last.control ≠ .idle) := by
  induction run with
  | refl => exact ⟨finished, rfl, rfl, by simp⟩
  | @snoc events before after event _ step ih =>
      obtain ⟨still, noInit, noStop, refused⟩ := ih
      obtain ⟨after, quiet, silent, moved⟩ := still.step step
      refine ⟨after, ?_, ?_, ?_⟩
      · rw [initialisations_snoc, noInit, quiet]
        rfl
      · rw [stops_snoc, noStop, silent]
        rfl
      · intro called
        rcases List.mem_append.mp called with earlier | now
        · exact moved (Or.inr (refused earlier))
        · exact moved (Or.inl (List.mem_singleton.mp now).symm)

/-- A boot called on a shut-down application ends in a failure. -/
theorem Over.boot_fails {tarjanScc : ResolverGraph → Traversal} {state : LifecycleState}
    (finished : state.Over) (idle : state.control = .idle) :
    ∃ phase report phases app, (lifecycleSystem tarjanScc).Run state [.boot, .proceed, .proceed]
      ⟨app, .failed (.cancelled phase) report phases⟩ := by
  rcases state with ⟨app, control⟩
  cases idle
  have signalled : Application.cancellationCheck { app with cursor := app.cursor.advance } =
      some (.cancelled app.cursor.advance.current) := by
    rw [Application.cancellationCheck, if_pos finished.cancelled]
  have booted : (lifecycleSystem tarjanScc).Run ⟨app, .idle⟩ [.boot] _ := .single (.boot app)
  have refused := booted.snoc (.cancelled signalled)
  simp only [unwind, show app.initialised = [] from finished.empty, List.reverse_nil] at refused
  exact ⟨_, _, _, _, refused.snoc (.rolledBack _ _ _)⟩

end LifecycleState

open LifecycleState LifecycleEvent in
/-- **Every initialised provider is stopped once, in reverse.** In every run
without a panic outside a polled future and without a boot of an application
that holds initialised providers and is not cancelled: the phases entered
increase; what has been stopped is a prefix of what was initialised, reversed,
and all of it once boot has failed or shutdown has returned; no provider is
initialised twice; between calls every scope that did not complete is
cancelled; after shutdown nothing is initialised or stopped and boot fails; and
no call is stuck. -/
theorem lifecycle_account {tarjanScc : ResolverGraph → Traversal} {first last : LifecycleState}
    {events : List LifecycleEvent}
    (passes : ∀ size graph, first.app.registry.declaredGraph = .ok (size, graph) →
      TarjanPass graph (tarjanScc graph))
    (built : Built tarjanScc first)
    (run : ((lifecycleSystem tarjanScc).restrict Regular).Run first events last) :
    (last.app.cursor.log.map LifecyclePhase.position).Pairwise (· < ·) ∧
    stops events <+: (initialisations events).reverse ∧
    (initialisations events).Nodup ∧
    (last.Settled → stops events = (initialisations events).reverse) ∧
    (last.effort = 0 → ∀ scope ∈ last.app.scopes, scope.completed = false →
      scope.cancelled = true) ∧
    (last.control = .idle → last.app.shutdownDone = true →
      (∀ later state, (lifecycleSystem tarjanScc).Run last later state →
        initialisations later = [] ∧ stops later = [] ∧
        (.boot ∈ later → state.control ≠ .idle)) ∧
      ∃ phase report phases app, (lifecycleSystem tarjanScc).Run last [.boot, .proceed, .proceed]
        ⟨app, .failed (.cancelled phase) report phases⟩) ∧
    (last.effort ≠ 0 → ∃ event after, LifecycleStep last event after ∧ Own event ∧
      last.Regular event) ∧
    ∀ event after, LifecycleStep last event after → Own event → after.effort < last.effort := by
  have kept := Kept.run run (Built.kept passes built)
  refine ⟨kept.ordered.increasing, ⟨_, kept.accounted.symm⟩, kept.once, ?_, ?_, ?_,
    effort_progress, fun _ _ => effort_step⟩
  · intro settled
    have accounted := kept.accounted
    have fits := kept.fits
    have none : last.remaining = [] := by
      rcases last with ⟨app, control⟩
      cases control with
      | idle => exact List.reverse_eq_nil_iff.mpr (fits.2 settled).2
      | failed => exact List.reverse_eq_nil_iff.mpr fits
      | dropped => exact fits.elim
      | booting | initialising | draining | rollingBack => exact settled.elim
    rw [none, List.map_nil, List.append_nil] at accounted
    exact accounted.symm
  · intro rest scope listed unfinished
    obtain ⟨index, found⟩ := List.mem_iff_getElem?.mp listed
    have closed : last.openGuard = none := by
      rcases last with ⟨app, control⟩
      cases control with
      | idle | failed | dropped => rfl
      | booting | initialising | draining | rollingBack => simp [effort] at rest
    rcases kept.guarded index scope found unfinished with cancelled | armed
    · exact cancelled
    · cases closed.symm.trans armed
  · intro idle done
    have finished : last.Over := by
      rcases last with ⟨app, control⟩
      cases idle
      exact ⟨(kept.fits.2 done).1, (kept.fits.2 done).2, done, Or.inl rfl⟩
    exact ⟨fun _ _ later => (finished.run later).2, finished.boot_fails idle⟩

/-- The application built over the linked registry. -/
def linkedApplication : LifecycleState where
  app := {
    registry := linkedRegistry
    order := ⟨[(1, ⟨"store"⟩), (0, ⟨"api"⟩)]⟩
    cursor := PhaseCursor.start.advance.advance
    initialised := []
    scopes := []
    cancelled := false
    providerDeadlineMs := 30000
    shutdownDone := false
    shutdown := ⟨.clean, ⟨[], []⟩⟩ }
  control := .idle

theorem linkedApplication_built : Built (fun _ => linkedTraversal) linkedApplication where
  resolved := ⟨_, rfl⟩
  cursor := rfl
  initialised := rfl
  scopes := rfl
  cancelled := rfl
  running := rfl
  shutdown := rfl
  control := rfl

open LifecycleState LifecycleEvent in
/-- The second provider fails, and the first one is stopped. -/
theorem linked_failed_boot_account : ∃ events last,
    ((lifecycleSystem fun _ => linkedTraversal).restrict Regular).Run linkedApplication events
      last ∧ last.Settled ∧ initialisations events = [1] ∧ stops events = [1] := by
  have booted : ((lifecycleSystem fun _ => linkedTraversal).restrict Regular).Run
      linkedApplication [.boot] _ := .single ⟨.boot _, Or.inl rfl⟩
  have entered := booted.snoc ⟨.initialise (by rfl) (by rfl), trivial⟩
  have first := entered.snoc ⟨.initialised _ _ _ _ _ .returns, by simp [Regular, Callback.awaited]⟩
  have again := first.snoc ⟨.initialise (by rfl) (by rfl), trivial⟩
  have second := again.snoc
    ⟨.initialised _ _ _ _ _ (.fails "no route"), by simp [Regular, Callback.awaited]⟩
  have stopped := second.snoc ⟨.stop (by rfl) .returns, by simp [Regular, Callback.awaited]⟩
  have failed := stopped.snoc ⟨.rolledBack _ _ _, trivial⟩
  have account := lifecycle_account linked_pass linkedApplication_built failed
  exact ⟨_, _, failed, trivial, rfl, account.2.2.2.1 trivial⟩

open LifecycleState LifecycleEvent in
/-- A provider that panics when it is called leaves the one before it running,
and a second boot has every provider stopped twice. -/
theorem uncontained_panic_strands :
    (¬ ∀ events last,
      (lifecycleSystem fun _ => linkedTraversal).Run linkedApplication events last →
        last.Settled → stops events = (initialisations events).reverse) ∧
    ¬ ∀ events last,
      (lifecycleSystem fun _ => linkedTraversal).Run linkedApplication events last →
        (stops events).Nodup := by
  have booted : (lifecycleSystem fun _ => linkedTraversal).Run linkedApplication [.boot] _ :=
    .single (.boot _)
  have entered := booted.snoc (.initialise (by rfl) (by rfl))
  have first := entered.snoc (.initialised _ _ _ _ _ .returns)
  have again := first.snoc (.initialise (by rfl) (by rfl))
  constructor
  · intro claim
    have dropped := again.snoc (.initialised _ _ _ _ _ (.callPanics "no route"))
    have same := claim _ _ dropped trivial
    exact absurd same (by decide)
  · intro claim
    have second := again.snoc (.initialised _ _ _ _ _ .returns)
    have ready := second.snoc (.ready (by rfl))
    have rebooted := ready.snoc (.boot _)
    have third := (rebooted.snoc (.initialise (by rfl) (by rfl))).snoc
      (.initialised _ _ _ _ _ .returns)
    have fourth := (third.snoc (.initialise (by rfl) (by rfl))).snoc
      (.initialised _ _ _ _ _ .returns)
    have shut := ((fourth.snoc (.ready (by rfl))).snoc (.shutdown (by rfl))).snoc
      (.drained _ .clean)
    have halfway := (shut.snoc (.stop (by rfl) .returns)).snoc (.stop (by rfl) .returns)
    have stopped := halfway.snoc (.stop (by rfl) .returns)
    have distinct := claim _ _ stopped
    exact absurd distinct (by decide)

end Renvor
