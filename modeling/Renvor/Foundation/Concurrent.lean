import Renvor.Foundation.Interleaving

/-! # Concurrent calls

Threads serve calls on one store, an operation at a time and in any order. An
operation works, fails and does nothing, or works and has its reply lost; a call
may be cancelled between its operations. A staging follows how far each call has
come, and an invariant of the store and the stages is proved operation by
operation (`Foundation.Concurrent.Staging.Keeps.run`).
-/

namespace Foundation.Concurrent

open Interleaving (Script)

/-- How an operation goes. -/
inductive Fate (Fault : Type)
  | works
  | fails (fault : Fault)
  | lost (fault : Fault)

/-- A store's operations, and what the calls on it run. -/
structure Service (Store Operation : Type) (Reply : Operation → Type)
    (Fault Call Error Answer : Type) where
  run : (operation : Operation) → Store → Except Fault (Reply operation) × Store
  body : Call → Script Operation (fun operation => Except Fault (Reply operation)) Error Answer
  empty : Store

/-- What happens in a thread. Where an operation did not run, it did nothing. -/
inductive Event (Thread Operation : Type) (Reply : Operation → Type)
    (Fault Call Error Answer : Type)
  | started (thread : Thread) (call : Call)
  | ran (thread : Thread) (call : Call) (operation : Operation)
      (did : Option (Except Fault (Reply operation)))
  | returned (thread : Thread) (call : Call) (result : Except Error Answer)
  | cancelled (thread : Thread) (call : Call)

/-- The store and the calls in progress. -/
structure World (Thread Store Operation : Type) (Reply : Operation → Type)
    (Fault Call Error Answer : Type) where
  store : Store
  running : Thread →
    Option (Call × Script Operation (fun operation => Except Fault (Reply operation)) Error Answer)

/-- The next thing that happens. -/
inductive Move (Thread Call Fault : Type)
  | start (thread : Thread) (call : Call)
  | proceed (thread : Thread) (fate : Fate Fault)
  | cancel (thread : Thread)

variable {Thread Store Operation : Type} {Reply : Operation → Type} {Fault Call Error Answer : Type}

/-- The event ends the thread's call. -/
def Event.Ends (thread : Thread) : Event Thread Operation Reply Fault Call Error Answer → Prop
  | returned ending _ _ | cancelled ending _ => ending = thread
  | _ => False

namespace Service

variable [DecidableEq Thread] (service : Service Store Operation Reply Fault Call Error Answer)

/-- What an operation did, what the caller is told, and the store it leaves. -/
def perform (fate : Fate Fault) (operation : Operation) (store : Store) :
    Option (Except Fault (Reply operation)) × Except Fault (Reply operation) × Store :=
  let (reply, after) := service.run operation store
  match fate with
  | .works => (some reply, reply, after)
  | .fails fault => (none, .error fault, store)
  | .lost fault => (some reply, .error fault, after)

/-- Makes a move, if it can be made. -/
def move (world : World Thread Store Operation Reply Fault Call Error Answer) :
    Move Thread Call Fault → Option (Event Thread Operation Reply Fault Call Error Answer ×
      World Thread Store Operation Reply Fault Call Error Answer)
  | .start thread call => match world.running thread with
      | some _ => none
      | none => some (.started thread call, { world with
          running := Function.update world.running thread (some (call, service.body call)) })
  | .proceed thread fate => match world.running thread with
      | none => none
      | some (call, .done answer) => some (.returned thread call (.ok answer), { world with
          running := Function.update world.running thread none })
      | some (call, .fail error) => some (.returned thread call (.error error), { world with
          running := Function.update world.running thread none })
      | some (call, .query operation next) =>
          let (did, told, after) := service.perform fate operation world.store
          some (.ran thread call operation did,
            ⟨after, Function.update world.running thread (some (call, next told))⟩)
  | .cancel thread => match world.running thread with
      | none => none
      | some (call, _) => some (.cancelled thread call, { world with
          running := Function.update world.running thread none })

/-- Every interleaving of calls. -/
def system : TransitionSystem (World Thread Store Operation Reply Fault Call Error Answer)
    (Event Thread Operation Reply Fault Call Error Answer) where
  Initial world := world = ⟨service.empty, fun _ => none⟩
  Step before event after := ∃ move, service.move before move = some (event, after)

/-- Makes moves one after another. -/
def play (world : World Thread Store Operation Reply Fault Call Error Answer) :
    List (Move Thread Call Fault) → Option (List (Event Thread Operation Reply Fault Call Error
      Answer) × World Thread Store Operation Reply Fault Call Error Answer)
  | [] => some ([], world)
  | move :: rest => do
      let (event, next) ← service.move world move
      let (events, last) ← play next rest
      return (event :: events, last)

/-- The world moves lead to, or the first where they cannot all be made. -/
def reach (world : World Thread Store Operation Reply Fault Call Error Answer)
    (moves : List (Move Thread Call Fault)) :
    World Thread Store Operation Reply Fault Call Error Answer :=
  ((service.play world moves).map Prod.snd).getD world

variable {service}

/-- Moves that can be made are a run. -/
theorem play_run (moves : List (Move Thread Call Fault))
    {first last : World Thread Store Operation Reply Fault Call Error Answer}
    {events : List (Event Thread Operation Reply Fault Call Error Answer)}
    (plays : service.play first moves = some (events, last)) :
    service.system.Run first events last := by
  induction moves generalizing first events with
  | nil =>
      cases plays
      exact .refl
  | cons move rest ih =>
      obtain ⟨⟨event, next⟩, moved, plays⟩ := Option.bind_eq_some_iff.mp plays
      obtain ⟨⟨later, final⟩, played, ends⟩ := Option.bind_eq_some_iff.mp plays
      cases ends
      have single : service.system.Run first [event] next := .single ⟨move, moved⟩
      exact single.trans (ih played)

/-- What a step does. -/
inductive Steps (service : Service Store Operation Reply Fault Call Error Answer)
    (before : World Thread Store Operation Reply Fault Call Error Answer) :
    Event Thread Operation Reply Fault Call Error Answer →
      World Thread Store Operation Reply Fault Call Error Answer → Prop
  | started {thread : Thread} {call : Call} (idle : before.running thread = none) :
      Steps service before (.started thread call) ⟨before.store,
        Function.update before.running thread (some (call, service.body call))⟩
  | ran {thread : Thread} {call : Call} {operation : Operation}
      {next : Except Fault (Reply operation) →
        Script Operation (fun operation => Except Fault (Reply operation)) Error Answer}
      (fate : Fate Fault) (at' : before.running thread = some (call, .query operation next)) :
      Steps service before
        (.ran thread call operation (service.perform fate operation before.store).1)
        ⟨(service.perform fate operation before.store).2.2, Function.update before.running thread
          (some (call, next (service.perform fate operation before.store).2.1))⟩
  | returned {thread : Thread} {call : Call} {result : Except Error Answer}
      (at' : before.running thread = some (call, Script.ofExcept result)) :
      Steps service before (.returned thread call result)
        ⟨before.store, Function.update before.running thread none⟩
  | cancelled {thread : Thread} {call : Call}
      {script : Script Operation (fun operation => Except Fault (Reply operation)) Error Answer}
      (at' : before.running thread = some (call, script)) :
      Steps service before (.cancelled thread call)
        ⟨before.store, Function.update before.running thread none⟩

theorem step_cases {before after : World Thread Store Operation Reply Fault Call Error Answer}
    {event : Event Thread Operation Reply Fault Call Error Answer}
    (step : service.system.Step before event after) : service.Steps before event after := by
  obtain ⟨move, moved⟩ := step
  cases move with
  | start thread call =>
      cases running : before.running thread with
      | some open' =>
          simp only [Service.move, running] at moved
          cases moved
      | none =>
          simp only [Service.move, running] at moved
          cases moved
          exact .started running
  | cancel thread =>
      cases running : before.running thread with
      | none =>
          simp only [Service.move, running] at moved
          cases moved
      | some open' =>
          simp only [Service.move, running] at moved
          cases moved
          exact .cancelled running
  | proceed thread fate =>
      cases running : before.running thread with
      | none =>
          simp only [Service.move, running] at moved
          cases moved
      | some open' =>
          obtain ⟨call, script⟩ := open'
          cases script with
          | done answer =>
              simp only [Service.move, running] at moved
              cases moved
              have at' : before.running thread = some (call, Script.ofExcept (.ok answer)) := running
              exact .returned at'
          | fail error =>
              simp only [Service.move, running] at moved
              cases moved
              have at' : before.running thread = some (call, Script.ofExcept (.error error)) :=
                running
              exact .returned at'
          | query operation next =>
              simp only [Service.move, running] at moved
              cases moved
              exact .ran fate running

/-- An operation that ran, of a call that asked for it. -/
theorem ran_inv {before after : World Thread Store Operation Reply Fault Call Error Answer}
    {thread : Thread} {call : Call} {operation : Operation}
    {did : Option (Except Fault (Reply operation))}
    (step : service.system.Step before (.ran thread call operation did) after) :
    ∃ next told, before.running thread = some (call, .query operation next) ∧
      (∃ fate, service.perform fate operation before.store = (did, told, after.store)) ∧
      after.running = Function.update before.running thread (some (call, next told)) := by
  generalize label : Event.ran thread call operation did = event at step
  cases step_cases step with
  | @ran _ _ _ next fate at' =>
      cases label
      exact ⟨next, _, at', ⟨fate, rfl⟩, rfl⟩
  | started | returned | cancelled => cases label

/-- An operation did nothing and fails, or it did what it does, and its caller is
told so or is told that it failed. -/
theorem perform_cases (fate : Fate Fault) (operation : Operation) (store : Store) :
    (∃ fault, service.perform fate operation store = (none, .error fault, store)) ∨
      ∃ told, service.perform fate operation store =
          (some (service.run operation store).1, told, (service.run operation store).2) ∧
        (told = (service.run operation store).1 ∨ ∃ fault, told = .error fault) := by
  cases fate with
  | works => exact .inr ⟨_, rfl, .inl rfl⟩
  | fails fault => exact .inl ⟨fault, rfl⟩
  | lost fault => exact .inr ⟨_, rfl, .inr ⟨fault, rfl⟩⟩

/-- What each operation does to the store, a run does to it. -/
theorem run_store (relation : Store → Store → Prop) (refl : ∀ store, relation store store)
    (trans : ∀ {first middle last}, relation first middle → relation middle last →
      relation first last)
    (each : ∀ operation store, relation store (service.run operation store).2)
    {first last : World Thread Store Operation Reply Fault Call Error Answer}
    {events : List (Event Thread Operation Reply Fault Call Error Answer)}
    (run : service.system.Run first events last) : relation first.store last.store := by
  induction run with
  | refl => exact refl _
  | snoc _ step ih =>
      cases step_cases step with
      | ran fate at' =>
          cases fate with
          | works => exact trans ih (each _ _)
          | fails fault => exact ih
          | lost fault => exact trans ih (each _ _)
      | started | returned | cancelled => exact ih

end Service

/-! ## Stages -/

section Conforms

variable {Stage Result : Type} {allows : Stage → Operation → Prop}
  {next : Stage → (operation : Operation) → Except Fault (Reply operation) → Stage}

/-- From its stage on, a script asks for what its stages allow, and is done where
its stage says so. -/
def Conforms (allows : Stage → Operation → Prop)
    (next : Stage → (operation : Operation) → Except Fault (Reply operation) → Stage)
    (ends : Answer → Stage → Prop) :
    Stage → Script Operation (fun operation => Except Fault (Reply operation)) Error Answer → Prop
  | stage, .done answer => ends answer stage
  | _, .fail _ => True
  | stage, .query operation rest =>
      allows stage operation ∧
        ∀ told, Conforms allows next ends (next stage operation told) (rest told)

theorem Conforms.bind {between : Answer → Stage → Prop} {ends : Result → Stage → Prop}
    {stage : Stage}
    {script : Script Operation (fun operation => Except Fault (Reply operation)) Error Answer}
    {rest : Answer → Script Operation (fun operation => Except Fault (Reply operation)) Error Result}
    (conforms : Conforms allows next between stage script)
    (after : ∀ answer stage, between answer stage → Conforms allows next ends stage (rest answer)) :
    Conforms allows next ends stage (script >>= rest) := by
  induction script generalizing stage with
  | done answer => exact after answer stage conforms
  | fail error => trivial
  | query operation rest' ih => exact ⟨conforms.1, fun told => ih told (conforms.2 told)⟩

end Conforms

/-- How far a call has come: the stage it starts in, what it may ask for in each
stage, the stage a reply takes it to, and the stages it is done in. -/
structure Staging (service : Service Store Operation Reply Fault Call Error Answer)
    (Stage : Type) where
  first : Call → Stage
  allows : Call → Stage → Operation → Prop
  next : Call → Stage → (operation : Operation) → Except Fault (Reply operation) → Stage
  ends : Call → Answer → Stage → Prop
  conforms : ∀ call, Conforms (allows call) (next call) (ends call) (first call) (service.body call)

namespace Staging

variable {service : Service Store Operation Reply Fault Call Error Answer}
  {Stage : Type} (staging : Staging service Stage)

/-- Each call in progress conforms to its stage. -/
def Conforming (world : World Thread Store Operation Reply Fault Call Error Answer)
    (stages : Thread → Stage) : Prop :=
  ∀ thread call script, world.running thread = some (call, script) →
    Conforms (staging.allows call) (staging.next call) (staging.ends call) (stages thread) script

theorem conforming_initial (stages : Thread → Stage) :
    staging.Conforming ⟨service.empty, fun _ => none⟩ stages := by
  rintro _ _ _ ⟨⟩

variable [DecidableEq Thread]

/-- Each step that the guard lets pass keeps an invariant of what happened so far,
the world and the stages. -/
structure Keeps (guard : List (Event Thread Operation Reply Fault Call Error Answer) ×
      World Thread Store Operation Reply Fault Call Error Answer →
      Event Thread Operation Reply Fault Call Error Answer → Prop)
    (invariant : List (Event Thread Operation Reply Fault Call Error Answer) →
      World Thread Store Operation Reply Fault Call Error Answer → (Thread → Stage) → Prop) :
    Prop where
  started : ∀ {events before stages thread call}, invariant events before stages →
    before.running thread = none → guard (events, before) (.started thread call) →
    invariant (events ++ [.started thread call]) ⟨before.store,
      Function.update before.running thread (some (call, service.body call))⟩
      (Function.update stages thread (staging.first call))
  ran : ∀ {events before stages thread call operation next did told after},
    invariant events before stages → staging.Conforming before stages →
    before.running thread = some (call, .query operation next) →
    (∃ fate, service.perform fate operation before.store = (did, told, after)) →
    guard (events, before) (.ran thread call operation did) →
    staging.allows call (stages thread) operation →
    invariant (events ++ [.ran thread call operation did])
      ⟨after, Function.update before.running thread (some (call, next told))⟩
      (Function.update stages thread (staging.next call (stages thread) operation told))
  returned : ∀ {events before stages thread call result}, invariant events before stages →
    before.running thread = some (call, Script.ofExcept result) →
    guard (events, before) (.returned thread call result) →
    (∀ answer, result = .ok answer → staging.ends call answer (stages thread)) →
    invariant (events ++ [.returned thread call result])
      ⟨before.store, Function.update before.running thread none⟩ stages
  cancelled : ∀ {events before stages thread call script}, invariant events before stages →
    before.running thread = some (call, script) →
    guard (events, before) (.cancelled thread call) →
    invariant (events ++ [.cancelled thread call])
      ⟨before.store, Function.update before.running thread none⟩ stages

variable {staging}
  {guard : List (Event Thread Operation Reply Fault Call Error Answer) ×
    World Thread Store Operation Reply Fault Call Error Answer →
    Event Thread Operation Reply Fault Call Error Answer → Prop}
  {invariant : List (Event Thread Operation Reply Fault Call Error Answer) →
    World Thread Store Operation Reply Fault Call Error Answer → (Thread → Stage) → Prop}
  {before : World Thread Store Operation Reply Fault Call Error Answer}
  {events : List (Event Thread Operation Reply Fault Call Error Answer)}
  {first last : List (Event Thread Operation Reply Fault Call Error Answer) ×
    World Thread Store Operation Reply Fault Call Error Answer}
  {stages : Thread → Stage}

/-- A thread comes to a stage its script conforms to. -/
theorem Conforming.update (conforming : staging.Conforming before stages) {thread : Thread}
    {store : Store} {call : Call} {stage : Stage}
    {script : Script Operation (fun operation => Except Fault (Reply operation)) Error Answer}
    (conforms : Conforms (staging.allows call) (staging.next call) (staging.ends call) stage
      script) :
    staging.Conforming ⟨store, Function.update before.running thread (some (call, script))⟩
      (Function.update stages thread stage) := by
  intro other called open' running
  change Function.update before.running thread _ other = _ at running
  by_cases same : other = thread
  · subst same
    rw [Function.update_self] at running ⊢
    obtain ⟨rfl, rfl⟩ := Prod.mk.inj (Option.some.inj running)
    exact conforms
  · rw [Function.update_of_ne same] at running ⊢
    exact conforming other called open' running

theorem Conforming.ended (conforming : staging.Conforming before stages) {thread : Thread}
    {store : Store} :
    staging.Conforming ⟨store, Function.update before.running thread none⟩ stages := by
  intro other called open' running
  change Function.update before.running thread _ other = _ at running
  by_cases same : other = thread
  · subst same
    rw [Function.update_self] at running
    cases running
  · rw [Function.update_of_ne same] at running
    exact conforming other called open' running

/-- **What each step keeps, every run keeps**, with each call at its stage. -/
theorem Keeps.run (keeps : staging.Keeps guard invariant)
    (run : (service.system.recorded.restrict guard).Run first events last)
    (conforming : staging.Conforming first.2 stages) (holds : invariant first.1 first.2 stages) :
    ∃ stages, staging.Conforming last.2 stages ∧ invariant last.1 last.2 stages := by
  induction run with
  | refl => exact ⟨stages, conforming, holds⟩
  | @snoc _ middle last event _ step ih =>
      obtain ⟨reached, conforming, holds⟩ := ih
      obtain ⟨past, before⟩ := middle
      obtain ⟨all, after⟩ := last
      obtain ⟨⟨step, rfl⟩, allowed⟩ := step
      change service.system.Step before event after at step
      cases Service.step_cases step with
      | started idle =>
          exact ⟨_, conforming.update (staging.conforms _), keeps.started holds idle allowed⟩
      | ran fate at' =>
          have here := conforming _ _ _ at'
          exact ⟨_, conforming.update (here.2 _),
            keeps.ran holds conforming at' ⟨fate, rfl⟩ allowed here.1⟩
      | @returned thread call result at' =>
          refine ⟨_, conforming.ended, keeps.returned holds at' allowed fun answer same => ?_⟩
          subst same
          exact conforming _ _ _ at'
      | cancelled at' => exact ⟨_, conforming.ended, keeps.cancelled holds at' allowed⟩

end Staging

/-! ## What holds of each call in progress -/

section Places

variable {Stage : Type} {placed placed' : Thread → Call → Stage → Prop}
  {world : World Thread Store Operation Reply Fault Call Error Answer} {stages : Thread → Stage}

/-- Something holds of each call in progress and its stage. -/
def Places (placed : Thread → Call → Stage → Prop)
    (world : World Thread Store Operation Reply Fault Call Error Answer)
    (stages : Thread → Stage) : Prop :=
  ∀ thread call script, world.running thread = some (call, script) →
    placed thread call (stages thread)

variable [DecidableEq Thread] {store : Store} {thread : Thread}

/-- A thread comes to a stage, and the others stay at theirs. -/
theorem Places.update (places : Places placed world stages) {call : Call} {stage : Stage}
    {script : Script Operation (fun operation => Except Fault (Reply operation)) Error Answer}
    (here : placed' thread call stage)
    (others : ∀ other called reached, other ≠ thread → placed other called reached →
      placed' other called reached) :
    Places placed' ⟨store, Function.update world.running thread (some (call, script))⟩
      (Function.update stages thread stage) := by
  intro other called open' running
  change Function.update world.running thread _ other = _ at running
  by_cases same : other = thread
  · subst same
    rw [Function.update_self] at running ⊢
    obtain ⟨rfl, _⟩ := Prod.mk.inj (Option.some.inj running)
    exact here
  · rw [Function.update_of_ne same] at running ⊢
    exact others other called _ same (places other called open' running)

theorem Places.ended (places : Places placed world stages)
    (others : ∀ other called reached, other ≠ thread → placed other called reached →
      placed' other called reached) :
    Places placed' ⟨store, Function.update world.running thread none⟩ stages := by
  intro other called open' running
  change Function.update world.running thread _ other = _ at running
  by_cases same : other = thread
  · subst same
    rw [Function.update_self] at running
    cases running
  · rw [Function.update_of_ne same] at running
    exact others other called _ same (places other called open' running)

end Places

/-! ## What a call has run -/

section RanSince

variable {replied : (operation : Operation) → Except Fault (Reply operation) → Prop}
  {asked : Operation → Prop} {thread : Thread} {call : Call}
  {events : List (Event Thread Operation Reply Fault Call Error Answer)}
  {event : Event Thread Operation Reply Fault Call Error Answer}

/-- The thread ran an operation with such a reply for the call, and started no
other since. -/
def RepliedSince (replied : (operation : Operation) → Except Fault (Reply operation) → Prop)
    (events : List (Event Thread Operation Reply Fault Call Error Answer)) (thread : Thread)
    (call : Call) : Prop :=
  ∃ front operation reply rest, replied operation reply ∧
    events = front ++ .ran thread call operation (some reply) :: rest ∧
      ∀ event ∈ rest, ∀ other, event ≠ .started thread other

theorem RepliedSince.append (ran : RepliedSince replied events thread call)
    (other : ∀ other, event ≠ .started thread other) :
    RepliedSince replied (events ++ [event]) thread call := by
  obtain ⟨front, operation, reply, rest, asks, rfl, since⟩ := ran
  refine ⟨front, operation, reply, rest ++ [event], asks, by simp, ?_⟩
  intro later member
  obtain member | same := List.mem_append.mp member
  · exact since later member
  · rw [List.mem_singleton.mp same]
    exact other

theorem RepliedSince.now {operation : Operation} {reply : Except Fault (Reply operation)}
    (asks : replied operation reply) :
    RepliedSince replied (events ++ [.ran thread call operation (some reply)]) thread call :=
  ⟨events, operation, reply, [], asks, rfl, by rintro _ ⟨⟩⟩

/-- What was replied since, was replied before the last event or in it. -/
theorem RepliedSince.of_append (ran : RepliedSince replied (events ++ [event]) thread call) :
    (RepliedSince replied events thread call ∧ ∀ other, event ≠ .started thread other) ∨
      ∃ operation reply, replied operation reply ∧
        event = .ran thread call operation (some reply) := by
  obtain ⟨front, operation, reply, rest, asks, whole, since⟩ := ran
  obtain rfl | ⟨rest, last, rfl⟩ := List.eq_nil_or_concat rest
  · obtain ⟨_, same⟩ := List.append_inj' whole rfl
    exact .inr ⟨operation, reply, asks, List.singleton_inj.mp same⟩
  · rw [List.concat_eq_append] at whole since
    rw [← List.cons_append, ← List.append_assoc] at whole
    obtain ⟨rfl, same⟩ := List.append_inj' whole rfl
    obtain rfl := List.singleton_inj.mp same
    refine .inl ⟨⟨front, operation, reply, rest, asks, rfl, ?_⟩, since _ (by simp)⟩
    exact fun later member => since later (List.mem_append_left _ member)

/-- What happens in another thread changes nothing of it. -/
theorem repliedSince_append (other : ∀ other, event ≠ .started thread other)
    (elsewhere : ∀ operation reply, replied operation reply →
      event ≠ .ran thread call operation (some reply)) :
    RepliedSince replied (events ++ [event]) thread call ↔ RepliedSince replied events thread call := by
  constructor
  · intro ran
    obtain ⟨ran, _⟩ | ⟨operation, reply, replies, same⟩ := ran.of_append
    · exact ran
    · exact (elsewhere operation reply replies same).elim
  · exact fun ran => ran.append other

theorem not_repliedSince_started {started : Call} :
    ¬ RepliedSince replied (events ++ [.started thread started]) thread call := by
  intro ran
  obtain ⟨_, other⟩ | ⟨_, _, _, ⟨⟩⟩ := ran.of_append
  exact other started rfl

/-- The thread ran such an operation for the call, and started no other since. -/
def RanSince (asked : Operation → Prop)
    (events : List (Event Thread Operation Reply Fault Call Error Answer)) (thread : Thread)
    (call : Call) : Prop :=
  ∃ front operation reply rest, asked operation ∧
    events = front ++ .ran thread call operation (some reply) :: rest ∧
      ∀ event ∈ rest, ∀ other, event ≠ .started thread other

theorem RanSince.append (ran : RanSince asked events thread call)
    (other : ∀ other, event ≠ .started thread other) :
    RanSince asked (events ++ [event]) thread call :=
  @RepliedSince.append _ _ _ _ _ _ _ (fun operation _ => asked operation) _ _ _ _ ran other

theorem RanSince.now {operation : Operation} {reply : Except Fault (Reply operation)}
    (asks : asked operation) :
    RanSince asked (events ++ [.ran thread call operation (some reply)]) thread call :=
  @RepliedSince.now _ _ _ _ _ _ _ (fun operation _ => asked operation) _ _ _ _ _ asks

/-- What a call ran, it ran after it started. -/
theorem RanSince.within {before during : List (Event Thread Operation Reply Fault Call Error Answer)}
    {other : Call} (ran : RanSince asked (before ++ .started thread other :: during) thread call) :
    ∃ front operation reply rest, asked operation ∧
      during = front ++ .ran thread call operation (some reply) :: rest := by
  obtain ⟨front, operation, reply, rest, asks, whole, since⟩ := ran
  obtain ⟨middle, rfl, tail⟩ | ⟨middle, rfl, tail⟩ := List.append_eq_append_iff.mp whole
  · cases middle with
    | nil => cases tail
    | cons event middle =>
        obtain ⟨_, rfl⟩ := List.cons.inj tail
        exact ⟨middle, operation, reply, rest, asks, rfl⟩
  · cases middle with
    | nil => cases tail
    | cons event middle =>
        obtain ⟨_, rfl⟩ := List.cons.inj tail
        exact (since _ (by simp) other rfl).elim

end RanSince

/-! ## A script with no other -/

section Alone

variable {Result Reported : Type}
  (run : (operation : Operation) → Store → Except Fault (Reply operation) × Store)
  (fates : Operation → Fate Fault)

/-- Runs a script by itself, each operation going as it is fated to. -/
def alone : Script Operation (fun operation => Except Fault (Reply operation)) Error Answer →
    Store → Except Error Answer × Store
  | .done answer, store => (.ok answer, store)
  | .fail error, store => (.error error, store)
  | .query operation next, store => match fates operation with
      | .works => alone (next (run operation store).1) (run operation store).2
      | .fails fault => alone (next (.error fault)) store
      | .lost fault => alone (next (.error fault)) (run operation store).2

theorem alone_query (operation : Operation) (next : Except Fault (Reply operation) →
      Script Operation (fun operation => Except Fault (Reply operation)) Error Answer)
    (store : Store) : alone run fates (.query operation next) store = match fates operation with
      | .works => alone run fates (next (run operation store).1) (run operation store).2
      | .fails fault => alone run fates (next (.error fault)) store
      | .lost fault => alone run fates (next (.error fault)) (run operation store).2 := by
  cases fate : fates operation <;> simp only [alone, fate]

theorem alone_bind
    (script : Script Operation (fun operation => Except Fault (Reply operation)) Error Answer)
    (rest : Answer → Script Operation (fun operation => Except Fault (Reply operation)) Error Result)
    (store : Store) : alone run fates (script >>= rest) store =
      match alone run fates script store with
      | (.ok answer, after) => alone run fates (rest answer) after
      | (.error error, after) => (.error error, after) := by
  induction script generalizing store with
  | done answer => rfl
  | fail error => rfl
  | query operation next ih =>
      show alone run fates (.query operation fun reply => next reply >>= rest) store = _
      rw [alone_query, alone_query]
      cases fates operation <;> exact ih _ _

theorem alone_catching
    (next : Except Error Answer →
      Script Operation (fun operation => Except Fault (Reply operation)) Reported Result)
    (script : Script Operation (fun operation => Except Fault (Reply operation)) Error Answer)
    (store : Store) : alone run fates (script.catching next) store =
      alone run fates (next (alone run fates script store).1) (alone run fates script store).2 := by
  induction script generalizing store with
  | done answer => rfl
  | fail error => rfl
  | query operation rest ih =>
      show alone run fates (.query operation fun reply => (rest reply).catching next) store = _
      rw [alone_query, alone_query]
      cases fates operation <;> exact ih _ _

theorem alone_ofExcept (result : Except Error Answer) (store : Store) :
    alone run fates (Script.ofExcept result : Script Operation
      (fun operation => Except Fault (Reply operation)) Error Answer) store = (result, store) := by
  cases result <;> rfl

end Alone

end Foundation.Concurrent
