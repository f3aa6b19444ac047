import Mathlib.Logic.Function.Basic
import Renvor.Foundation.TransitionSystem

/-! # Interleaved transactions

Sessions run transactions on one store, a statement at a time and in any order.
A transaction is committed when its script is done and discarded when it fails;
it may fail at any statement, and be cancelled at any time. An outline of a
transaction gives what holds between its statements, in terms that the other
sessions' steps leave true. Sessions whose transactions have outlines keep the
store's invariant, and each transaction ends with what its outline says
(`Foundation.Interleaving.Outlined.answered`).
-/

namespace Foundation.Interleaving

/-- What a transaction has still to do. -/
inductive Script (Statement : Type) (Reply : Statement → Type) (Error Answer : Type)
  | done (answer : Answer)
  | fail (error : Error)
  | query (statement : Statement) (next : Reply statement → Script Statement Reply Error Answer)

namespace Script

variable {Statement : Type} {Reply : Statement → Type} {Error Answer Result : Type}

def bind : Script Statement Reply Error Answer → (Answer → Script Statement Reply Error Result) →
    Script Statement Reply Error Result
  | done answer, rest => rest answer
  | fail error, _ => fail error
  | query statement next, rest => query statement fun reply => (next reply).bind rest

instance : Monad (Script Statement Reply Error) where
  pure := done
  bind := bind

/-- Runs one statement. -/
def ask (statement : Statement) : Script Statement Reply Error (Reply statement) :=
  query statement done

/-- Goes on with a value or fails with an error. -/
def ofExcept : Except Error Answer → Script Statement Reply Error Answer
  | .ok answer => done answer
  | .error error => fail error

/-- Reports failures as another kind of error. -/
def mapError {Reported : Type} (report : Error → Reported) :
    Script Statement Reply Error Answer → Script Statement Reply Reported Answer
  | done answer => done answer
  | fail error => fail (report error)
  | query statement next => query statement fun reply => (next reply).mapError report

/-- Goes on with what the script comes to, failures as well. -/
def catching {Reported : Type} (next : Except Error Answer → Script Statement Reply Reported Result) :
    Script Statement Reply Error Answer → Script Statement Reply Reported Result
  | done answer => next (.ok answer)
  | fail error => next (.error error)
  | query statement rest => query statement fun reply => (rest reply).catching next

/-- Every statement the script may come to is allowed. -/
def Asks (allowed : Statement → Prop) : Script Statement Reply Error Answer → Prop
  | done _ | fail _ => True
  | query statement next => allowed statement ∧ ∀ reply, (next reply).Asks allowed

theorem Asks.bind {allowed : Statement → Prop} {script : Script Statement Reply Error Answer}
    {rest : Answer → Script Statement Reply Error Result} (asks : script.Asks allowed)
    (after : ∀ answer, (rest answer).Asks allowed) : (script >>= rest).Asks allowed := by
  induction script with
  | done answer => exact after answer
  | fail error => trivial
  | query statement next ih => exact ⟨asks.1, fun reply => ih reply (asks.2 reply)⟩

theorem asks_ofExcept {allowed : Statement → Prop} (result : Except Error Answer) :
    (ofExcept result : Script Statement Reply Error Answer).Asks allowed := by
  cases result <;> trivial

end Script

/-- The statements sessions run on a store. A statement without a result waits or
is refused. -/
structure Engine (Session Store Statement : Type) (Reply : Statement → Type) where
  run : Session → (statement : Statement) → Store → Option (Reply statement × Store)
  commit : Session → Store → Store
  discard : Session → Store → Store

/-- The transactions that calls open, from a store nothing has touched. -/
structure Workload (Session Store Statement : Type) (Reply : Statement → Type)
    (Call Error Answer : Type) extends Engine Session Store Statement Reply where
  body : Call → Script Statement Reply Error Answer
  empty : Store

inductive Event (Session Call Error Answer : Type)
  | started (session : Session) (call : Call)
  | moved (session : Session)
  | answered (session : Session) (call : Call) (result : Except Error Answer)
  | cancelled (session : Session)

variable {Session Store Statement : Type} {Reply : Statement → Type} {Call Error Answer : Type}

/-- The session that takes the step. -/
def Event.session : Event Session Call Error Answer → Session
  | started session _ | moved session | answered session _ _ | cancelled session => session

/-- The event ends the session's transaction. -/
def Event.Ends (session : Session) : Event Session Call Error Answer → Prop
  | answered ending _ _ | cancelled ending => ending = session
  | _ => False

theorem Event.Ends.same {session : Session} {event : Event Session Call Error Answer}
    (ends : event.Ends session) : session = event.session := by
  cases event with
  | answered | cancelled => exact Eq.symm ends
  | started | moved => exact ends.elim

/-- The store and the open transactions. -/
structure World (Session Store Statement : Type) (Reply : Statement → Type)
    (Call Error Answer : Type) where
  store : Store
  running : Session → Option (Call × Script Statement Reply Error Answer)

namespace Workload

variable [DecidableEq Session] (workload : Workload Session Store Statement Reply Call Error Answer)

/-- One step of one session. -/
inductive Step : World Session Store Statement Reply Call Error Answer →
    Event Session Call Error Answer → World Session Store Statement Reply Call Error Answer → Prop
  | start {world} {session : Session} {call : Call} (idle : world.running session = none) :
      Step world (.started session call) { world with
        running := Function.update world.running session (some (call, workload.body call)) }
  | statement {world} {session : Session} {call : Call} {statement : Statement}
      {next : Reply statement → Script Statement Reply Error Answer} {reply : Reply statement}
      {after : Store} (at' : world.running session = some (call, .query statement next))
      (runs : workload.run session statement world.store = some (reply, after)) :
      Step world (.moved session)
        ⟨after, Function.update world.running session (some (call, next reply))⟩
  -- any statement may fail, and then changes nothing
  | failed {world} {session : Session} {call : Call} {statement : Statement}
      {next : Reply statement → Script Statement Reply Error Answer} {error : Error}
      (at' : world.running session = some (call, .query statement next)) :
      Step world (.moved session) { world with
        running := Function.update world.running session (some (call, .fail error)) }
  | committed {world} {session : Session} {call : Call} {answer : Answer}
      (at' : world.running session = some (call, .done answer)) :
      Step world (.answered session call (.ok answer))
        ⟨workload.commit session world.store, Function.update world.running session none⟩
  -- a commit that fails leaves open whether the work is committed
  | commitLost {world} {session : Session} {call : Call} {answer : Answer} {error : Error}
      {kept : Bool} (at' : world.running session = some (call, .done answer)) :
      Step world (.answered session call (.error error))
        ⟨if kept = true then workload.commit session world.store
          else workload.discard session world.store,
          Function.update world.running session none⟩
  | rolledBack {world} {session : Session} {call : Call} {error : Error}
      (at' : world.running session = some (call, .fail error)) :
      Step world (.answered session call (.error error))
        ⟨workload.discard session world.store, Function.update world.running session none⟩
  | cancel {world} {session : Session} {open' : Call × Script Statement Reply Error Answer}
      (at' : world.running session = some open') :
      Step world (.cancelled session)
        ⟨workload.discard session world.store, Function.update world.running session none⟩

/-- Every interleaving of calls, from a store nothing has touched. -/
def system : TransitionSystem (World Session Store Statement Reply Call Error Answer)
    (Event Session Call Error Answer) where
  Initial world := world = ⟨workload.empty, fun _ => none⟩
  Step := workload.Step

end Workload

/-- A step runs one statement, ends one transaction or leaves the store. Only a
transaction that is done is committed. -/
theorem Workload.Step.store_cases [DecidableEq Session]
    {workload : Workload Session Store Statement Reply Call Error Answer}
    {before after : World Session Store Statement Reply Call Error Answer}
    {event : Event Session Call Error Answer} (step : workload.Step before event after) :
    after.store = before.store ∨
      (∃ session statement reply,
        workload.run session statement before.store = some (reply, after.store)) ∨
      ((∃ call answer, before.running event.session = some (call, .done answer)) ∧
        after.store = workload.commit event.session before.store) ∨
      after.store = workload.discard event.session before.store := by
  cases step with
  | start | failed => exact .inl rfl
  | statement _ runs => exact .inr (.inl ⟨_, _, _, runs⟩)
  | committed at' => exact .inr (.inr (.inl ⟨⟨_, _, at'⟩, rfl⟩))
  | @commitLost _ _ _ _ kept at' =>
      cases kept with
      | true => exact .inr (.inr (.inl ⟨⟨_, _, at'⟩, rfl⟩))
      | false => exact .inr (.inr (.inr rfl))
  | rolledBack | cancel => exact .inr (.inr (.inr rfl))

/-! ## Outlines -/

/-- What every proof about an engine's sessions rests on: the store's invariant,
and what a session may rely on in a step of another one. -/
structure Ground (Session Store : Type) where
  invariant : Store → Prop
  rely : Session → Store → Store → Prop

namespace Ground

variable (ground : Ground Session Store)

/-- Steps of other sessions leave the predicate true. -/
def Stable (session : Session) (predicate : Store → Prop) : Prop :=
  ∀ before after, ground.invariant before → ground.invariant after → predicate before →
    ground.rely session before after → predicate after

variable (engine : Engine Session Store Statement Reply)

/-- Run where the precondition holds, each statement keeps the invariant and
leads to where the rest of the script can be run. -/
def Outline {Result : Type} (session : Session) (post : Result → Store → Prop) :
    Script Statement Reply Error Result → (Store → Prop) → Prop
  | .done result, pre => ∀ store, ground.invariant store → pre store → post result store
  | .fail _, _ => True
  | .query statement next, pre => ∀ store reply after, ground.invariant store → pre store →
      engine.run session statement store = some (reply, after) →
      ground.invariant after ∧ ∃ middle, ground.Stable session middle ∧ middle after ∧
        Outline session post (next reply) middle

variable {ground engine} {Result Last : Type} {session : Session}

theorem Outline.weaken {post : Result → Store → Prop} {pre stronger : Store → Prop}
    {script : Script Statement Reply Error Result}
    (outline : ground.Outline engine session post script pre)
    (implies : ∀ store, ground.invariant store → stronger store → pre store) :
    ground.Outline engine session post script stronger := by
  cases script with
  | done result =>
      intro store invariant holds
      exact outline store invariant (implies store invariant holds)
  | fail => trivial
  | query statement next =>
      intro store reply after invariant holds
      exact outline store reply after invariant (implies store invariant holds)

/-- A script outlined from each of several preconditions is outlined from any of
them. -/
theorem Outline.choose {Index : Sort*} {post : Result → Store → Prop}
    {pre : Index → Store → Prop} {script : Script Statement Reply Error Result}
    (each : ∀ index, ground.Outline engine session post script (pre index)) :
    ground.Outline engine session post script fun store => ∃ index, pre index store := by
  cases script with
  | done result =>
      rintro store invariant ⟨index, holds⟩
      exact each index store invariant holds
  | fail => trivial
  | query statement next =>
      rintro store reply after invariant ⟨index, holds⟩
      exact each index store reply after invariant holds

/-- **Scripts are outlined piece by piece.** -/
theorem Outline.bind {middle : Result → Store → Prop} {post : Last → Store → Prop}
    {pre : Store → Prop} {script : Script Statement Reply Error Result}
    {rest : Result → Script Statement Reply Error Last}
    (first : ground.Outline engine session middle script pre)
    (second : ∀ result, ground.Outline engine session post (rest result) (middle result)) :
    ground.Outline engine session post (script >>= rest) pre := by
  induction script generalizing pre with
  | done result => exact (second result).weaken first
  | fail => trivial
  | query statement next ih =>
      intro store reply after invariant holds runs
      obtain ⟨keeps, between, stable, reached, outline⟩ :=
        first store reply after invariant holds runs
      exact ⟨keeps, between, stable, reached, ih reply outline⟩

/-- One statement, and then the rest. -/
theorem Outline.ask {post : Last → Store → Prop} {pre : Store → Prop} {statement : Statement}
    {rest : Reply statement → Script Statement Reply Error Last}
    (middle : Reply statement → Store → Prop)
    (keeps : ∀ store reply after, ground.invariant store → pre store →
      engine.run session statement store = some (reply, after) →
      ground.invariant after ∧ middle reply after)
    (stable : ∀ reply, ground.Stable session (middle reply))
    (second : ∀ reply, ground.Outline engine session post (rest reply) (middle reply)) :
    ground.Outline engine session post (Script.ask statement >>= rest) pre := by
  intro store reply after invariant holds runs
  obtain ⟨kept, reached⟩ := keeps store reply after invariant holds runs
  exact ⟨kept, middle reply, stable reply, reached, second reply⟩

theorem Outline.conclude {post weaker : Result → Store → Prop} {pre : Store → Prop}
    {script : Script Statement Reply Error Result}
    (outline : ground.Outline engine session post script pre)
    (implies : ∀ result store, ground.invariant store → post result store → weaker result store) :
    ground.Outline engine session weaker script pre := by
  induction script generalizing pre with
  | done result =>
      intro store invariant holds
      exact implies result store invariant (outline store invariant holds)
  | fail => trivial
  | query statement next ih =>
      intro store reply after invariant holds runs
      obtain ⟨keeps, middle, stable, reached, rest⟩ :=
        outline store reply after invariant holds runs
      exact ⟨keeps, middle, stable, reached, ih reply rest⟩

/-- A value a script goes on with, if there is one. -/
theorem Outline.except {Value : Type} {post : Result → Store → Prop} {pre : Store → Prop}
    {value : Except Error Value} {rest : Value → Script Statement Reply Error Result}
    (each : ∀ given, value = .ok given →
      ground.Outline engine session post (rest given) pre) :
    ground.Outline engine session post (Script.ofExcept value >>= rest) pre := by
  cases value with
  | error error => trivial
  | ok given => exact each given rfl

/-- How failures are reported is nothing to an outline. -/
theorem Outline.mapError {Reported : Type} {post : Result → Store → Prop} {pre : Store → Prop}
    {script : Script Statement Reply Error Result}
    (outline : ground.Outline engine session post script pre) (report : Error → Reported) :
    ground.Outline engine session post (script.mapError report) pre := by
  induction script generalizing pre with
  | done result => exact outline
  | fail => trivial
  | query statement next ih =>
      intro store reply after invariant holds runs
      obtain ⟨keeps, middle, stable, reached, rest⟩ :=
        outline store reply after invariant holds runs
      exact ⟨keeps, middle, stable, reached, ih reply rest⟩

/-- A fact that no statement of the session and no step of another one disturbs
holds on as the script runs. -/
theorem Outline.frame {post : Result → Store → Prop} {pre : Store → Prop}
    {script : Script Statement Reply Error Result}
    (outline : ground.Outline engine session post script pre) (fact : Store → Prop)
    (stable : ground.Stable session fact)
    (kept : ∀ statement store reply after, engine.run session statement store =
      some (reply, after) → fact store → fact after) :
    ground.Outline engine session (fun result store => post result store ∧ fact store) script
      fun store => pre store ∧ fact store := by
  induction script generalizing pre with
  | done result => exact fun store invariant holds => ⟨outline store invariant holds.1, holds.2⟩
  | fail => trivial
  | query statement next ih =>
      intro store reply after invariant holds runs
      obtain ⟨keeps, middle, steady, reached, rest⟩ :=
        outline store reply after invariant holds.1 runs
      refine ⟨keeps, fun store => middle store ∧ fact store, ?_,
        ⟨reached, kept statement store reply after runs holds.2⟩, ih reply rest⟩
      exact fun first second sound again both rely =>
        ⟨steady first second sound again both.1 rely, stable first second sound again both.2 rely⟩

end Ground

/-- What a proof about a workload adds: what holds of a session without a
transaction, and what holds of the store a call was started from and the one its
answer is committed to. -/
structure Outlining (Session Store Call Answer : Type) extends Ground Session Store where
  idle : Session → Store → Prop
  ends : Session → Call → Store → Answer → Store → Prop

/-- Every call has an outline, and no step disturbs what another session relies
on. -/
structure Outlined (workload : Workload Session Store Statement Reply Call Error Answer)
    (outlining : Outlining Session Store Call Answer) : Prop where
  empty : outlining.invariant workload.empty ∧ ∀ session, outlining.idle session workload.empty
  rest : ∀ session store, outlining.rely session store store
  waits : ∀ session, outlining.Stable session (outlining.idle session)
  body : ∀ session call start, outlining.invariant start → outlining.idle session start →
    ∃ pre, outlining.Stable session pre ∧ pre start ∧
      outlining.Outline workload.toEngine session (outlining.ends session call start) (workload.body call) pre
  statement : ∀ session other statement before reply after, other ≠ session →
    outlining.invariant before → workload.run session statement before = some (reply, after) →
    outlining.rely other before after
  commit : ∀ session call start answer store, outlining.invariant store →
    outlining.ends session call start answer store →
    outlining.invariant (workload.commit session store) ∧
      outlining.idle session (workload.commit session store) ∧
      ∀ other ≠ session, outlining.rely other store (workload.commit session store)
  discard : ∀ session store, outlining.invariant store →
    outlining.invariant (workload.discard session store) ∧
      outlining.idle session (workload.discard session store) ∧
      ∀ other ≠ session, outlining.rely other store (workload.discard session store)

namespace Outlined

variable {workload : Workload Session Store Statement Reply Call Error Answer}
  {outlining : Outlining Session Store Call Answer}

/-- The session runs a call started from this store, along its outline. -/
def Follows (workload : Workload Session Store Statement Reply Call Error Answer)
    (outlining : Outlining Session Store Call Answer) (session : Session) (call : Call)
    (start : Store) (world : World Session Store Statement Reply Call Error Answer) : Prop :=
  ∃ script pre, world.running session = some (call, script) ∧ outlining.Stable session pre ∧
    pre world.store ∧
    outlining.Outline workload.toEngine session (outlining.ends session call start) script pre

/-- The invariant holds and every session is idle or follows its outline. -/
structure Sound (workload : Workload Session Store Statement Reply Call Error Answer)
    (outlining : Outlining Session Store Call Answer)
    (world : World Session Store Statement Reply Call Error Answer) : Prop where
  invariant : outlining.invariant world.store
  sessions : ∀ session, world.running session = none ∧ outlining.idle session world.store ∨
    ∃ call start, Follows workload outlining session call start world

variable [DecidableEq Session] {before after : World Session Store Statement Reply Call Error Answer}
  {event : Event Session Call Error Answer} {session other : Session} {call : Call} {start : Store}

/-- What a step does to the session that takes it. -/
def Own (workload : Workload Session Store Statement Reply Call Error Answer)
    (outlining : Outlining Session Store Call Answer)
    (before after : World Session Store Statement Reply Call Error Answer) :
    Event Session Call Error Answer → Prop
  | .started session call => Follows workload outlining session call before.store after
  | .moved session => ∀ call start, Follows workload outlining session call start before →
      Follows workload outlining session call start after
  | .answered session _ _ | .cancelled session =>
      after.running session = none ∧ outlining.idle session after.store

/-- What a step does: it keeps the invariant, does to the other sessions what
they rely on and follows the outline of its own. -/
structure Effect (workload : Workload Session Store Statement Reply Call Error Answer)
    (outlining : Outlining Session Store Call Answer)
    (before : World Session Store Statement Reply Call Error Answer)
    (event : Event Session Call Error Answer)
    (after : World Session Store Statement Reply Call Error Answer) : Prop where
  invariant : outlining.invariant after.store
  relied : ∀ other ≠ event.session, outlining.rely other before.store after.store
  running : ∀ other ≠ event.session, after.running other = before.running other
  own : Own workload outlining before after event

theorem Sound.effect (sound : Sound workload outlining before)
    (outlined : Outlined workload outlining) (step : workload.Step before event after) :
    Effect workload outlining before event after := by
  have alone : ∀ {session other} {entry : Option (Call × Script Statement Reply Error Answer)},
      other ≠ session → Function.update before.running session entry other =
        before.running other := fun different => Function.update_of_ne different _ _
  cases step with
  | @start session call idle =>
      refine ⟨sound.invariant, fun _ _ => outlined.rest _ _, fun _ => alone, ?_⟩
      obtain ⟨_, waits⟩ | ⟨_, _, _, _, running, _⟩ := sound.sessions session
      · obtain ⟨pre, stable, holds, outline⟩ :=
          outlined.body session call before.store sound.invariant waits
        exact ⟨_, pre, Function.update_self .., stable, holds, outline⟩
      · rw [idle] at running
        cases running
  | @statement session call statement next reply store at' runs =>
      have relied := fun other different => outlined.statement session other statement before.store
        reply store different sound.invariant runs
      obtain ⟨none, _⟩ | ⟨own, start, follows⟩ := sound.sessions session
      · rw [at'] at none
        cases none
      · refine ⟨?_, relied, fun _ => alone, fun own start follows => ?_⟩ <;>
          obtain ⟨script, pre, running, stable, holds, outline⟩ := follows <;>
          cases at'.symm.trans running <;>
          obtain ⟨keeps, middle, after, reached, rest⟩ :=
            outline before.store reply store sound.invariant holds runs
        · exact keeps
        · exact ⟨_, middle, Function.update_self .., after, reached, rest⟩
  | @failed session call statement next error at' =>
      refine ⟨sound.invariant, fun _ _ => outlined.rest _ _, fun _ => alone, ?_⟩
      rintro own start ⟨script, pre, running, stable, holds, outline⟩
      cases at'.symm.trans running
      exact ⟨_, pre, Function.update_self .., stable, holds, trivial⟩
  | @committed session call answer at' =>
      obtain ⟨_, start, _, pre, running, _, holds, outline⟩ := (sound.sessions session).resolve_left
        fun none => by cases at'.symm.trans none.1
      cases at'.symm.trans running
      obtain ⟨keeps, idle, relied⟩ := outlined.commit session call start answer before.store
        sound.invariant (outline before.store sound.invariant holds)
      exact ⟨keeps, relied, fun _ => alone, Function.update_self .., idle⟩
  | @commitLost session call answer error kept at' =>
      obtain ⟨_, start, _, pre, running, _, holds, outline⟩ := (sound.sessions session).resolve_left
        fun none => by cases at'.symm.trans none.1
      cases at'.symm.trans running
      cases kept with
      | true =>
          obtain ⟨keeps, idle, relied⟩ := outlined.commit session call start answer before.store
            sound.invariant (outline before.store sound.invariant holds)
          exact ⟨keeps, relied, fun _ => alone, Function.update_self .., idle⟩
      | false =>
          obtain ⟨keeps, idle, relied⟩ := outlined.discard session before.store sound.invariant
          exact ⟨keeps, relied, fun _ => alone, Function.update_self .., idle⟩
  | @rolledBack session call error at' =>
      obtain ⟨keeps, idle, relied⟩ := outlined.discard session before.store sound.invariant
      exact ⟨keeps, relied, fun _ => alone, Function.update_self .., idle⟩
  | @cancel session open' at' =>
      obtain ⟨keeps, idle, relied⟩ := outlined.discard session before.store sound.invariant
      exact ⟨keeps, relied, fun _ => alone, Function.update_self .., idle⟩

/-- A step that does not end a session's transaction leaves it on its outline. -/
theorem Follows.step (follows : Follows workload outlining session call start before)
    (sound : Sound workload outlining before) (outlined : Outlined workload outlining)
    (step : workload.Step before event after) (open' : ¬ event.Ends session) :
    Follows workload outlining session call start after := by
  have effect := sound.effect outlined step
  by_cases same : session = event.session
  · have own := effect.own
    cases event with
    | started other call => 
        subst same
        cases step with
        | start idle =>
            obtain ⟨script, pre, running, _⟩ := follows
            cases idle.symm.trans running
    | moved other =>
        subst same
        exact own call start follows
    | answered => exact (open' same.symm).elim
    | cancelled => exact (open' same.symm).elim
  · obtain ⟨script, pre, running, stable, holds, outline⟩ := follows
    refine ⟨script, pre, (effect.running session same).trans running, stable, ?_, outline⟩
    exact stable _ _ sound.invariant effect.invariant holds (effect.relied session same)

theorem Sound.step (sound : Sound workload outlining before)
    (outlined : Outlined workload outlining) (step : workload.Step before event after) :
    Sound workload outlining after := by
  have effect := sound.effect outlined step
  refine ⟨effect.invariant, fun session => ?_⟩
  by_cases same : session = event.session
  · have own := effect.own
    cases event with
    | started other call => exact .inr ⟨call, before.store, same ▸ own⟩
    | moved other =>
        cases same
        obtain ⟨none, _⟩ | ⟨call, start, follows⟩ := sound.sessions other
        · cases step with
          | statement at' | failed at' => cases none.symm.trans at'
        · exact .inr ⟨call, start, own call start follows⟩
    | answered => exact .inl (same ▸ own)
    | cancelled => exact .inl (same ▸ own)
  · obtain ⟨none, idle⟩ | ⟨call, start, follows⟩ := sound.sessions session
    · exact .inl ⟨(effect.running session same).trans none,
        outlined.waits session _ _ sound.invariant effect.invariant idle
          (effect.relied session same)⟩
    · exact .inr ⟨call, start, follows.step sound outlined step fun ends => same ends.same⟩

/-- **Outlined workloads keep their invariant** however their transactions
interleave. -/
theorem sound (outlined : Outlined workload outlining) :
    workload.system.Invariant (Sound workload outlining) where
  initial := by
    rintro _ rfl
    exact ⟨outlined.empty.1, fun session => .inl ⟨rfl, outlined.empty.2 session⟩⟩
  step _ _ _ holds step := holds.step outlined step

omit [DecidableEq Session] in
/-- A script that is done was started from some store, and its outline holds. -/
theorem Sound.done (sound : Sound workload outlining before) {answer : Answer}
    (running : before.running session = some (call, .done answer)) :
    ∃ start, outlining.ends session call start answer before.store := by
  obtain ⟨none, _⟩ | ⟨_, start, _, _, along, _, holds, outline⟩ := sound.sessions session
  · cases none.symm.trans running
  · cases running.symm.trans along
    exact ⟨start, outline before.store sound.invariant holds⟩

/-- What an answer is committed to, as the outline of its call says. -/
theorem Follows.answered (follows : Follows workload outlining session call start before)
    (sound : Sound workload outlining before) {answer : Answer} {called : Call}
    (step : workload.Step before (.answered session called (.ok answer)) after) :
    called = call ∧ outlining.ends session call start answer before.store ∧
      after.store = workload.commit session before.store := by
  cases step with
  | committed at' =>
      obtain ⟨script, pre, running, _, holds, outline⟩ := follows
      cases at'.symm.trans running
      exact ⟨rfl, outline before.store sound.invariant holds, rfl⟩

/-- Whatever call is answered was started from some store. -/
theorem Sound.answered (sound : Sound workload outlining before) {answer : Answer} {called : Call}
    (step : workload.Step before (.answered session called (.ok answer)) after) :
    ∃ start, outlining.ends session called start answer before.store ∧
      after.store = workload.commit session before.store := by
  cases step with
  | committed at' =>
      obtain ⟨start, ends⟩ := sound.done at'
      exact ⟨start, ends, rfl⟩

/-- **Each call ends with what its outline says** of the store it was started
from and the store its answer is committed to. -/
theorem answered (outlined : Outlined workload outlining) {first last : World Session Store
      Statement Reply Call Error Answer} {events : List (Event Session Call Error Answer)}
    (reachable : workload.system.Reachable before)
    (started : workload.Step before (.started session call) first)
    (run : workload.system.Run first events last) (open' : ∀ event ∈ events, ¬ event.Ends session)
    {answer : Answer} {called : Call}
    (step : workload.Step last (.answered session called (.ok answer)) after) :
    called = call ∧ outlining.ends session call before.store answer last.store ∧
      after.store = workload.commit session last.store := by
  have sound := outlined.sound.reachable reachable
  have follows : Follows workload outlining session call before.store first :=
    (sound.effect outlined started).own
  suffices Sound workload outlining last ∧
      Follows workload outlining session call before.store last from this.2.answered this.1 step
  clear step
  induction run with
  | refl => exact ⟨sound.step outlined started, follows⟩
  | snoc _ step ih =>
      obtain ⟨holds, along⟩ := ih fun event member => open' event (List.mem_append_left _ member)
      exact ⟨holds.step outlined step, along.step holds outlined step (open' _ (by simp))⟩

end Outlined

end Foundation.Interleaving
