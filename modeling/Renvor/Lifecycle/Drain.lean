import Renvor.Foundation.TransitionSystem
import Renvor.Kernel.Arithmetic
import Renvor.Kernel.Error
import Mathlib.Data.Finset.Card

/-! # Draining in-flight work

The work gate keeps its count and its closed flag in one value that is read and
written indivisibly. `begin`, `close` and the drop of a permit are one closure
under that lock each; a drain is several steps, and other threads run between
them: it closes the gate, reads the count, waits for zero under a budget, and
reads the count a second time when the budget has elapsed.

`Renvor.gateSystem` interleaves any number of these calls. In every reachable
state the count is the number of live permits, one close answered true, and a
clean drain saw a closed idle gate (`Renvor.GateHistory.Sound`). The second
read is what the last permit can still overtake.
-/

namespace Renvor

/-- How a drain ended. -/
inductive DrainOutcome
  | clean
  | incomplete (outstanding : Nat)

/-- The gate's whole state, in one value. -/
structure GateState where
  outstanding : Nat
  closed : Bool

namespace GateState

/-- An open gate with no work in flight. -/
def new : GateState := ⟨0, false⟩

/-- Admits one unit of work; refused once the gate is closed. -/
def begin (gate : GateState) (operation : String) : Except KernelError GateState :=
  if gate.closed then .error (.shuttingDown operation)
  else .ok { gate with outstanding := saturatingAdd gate.outstanding 1 }

/-- Refuses further work, and says whether this call closed the gate. -/
def close (gate : GateState) : Bool × GateState :=
  if gate.closed then (false, gate) else (true, { gate with closed := true })

/-- The drop of a permit; the subtraction stops at zero. -/
def drop (gate : GateState) : GateState := { gate with outstanding := gate.outstanding - 1 }

end GateState

/-- Where one drain call stands. -/
inductive DrainCall
  /-- Called; the gate is not closed by it yet. -/
  | called
  /-- Has closed the gate; the first read of the count is next. -/
  | closed
  /-- Saw work in flight and waits for the count to reach zero. -/
  | waiting
  /-- The budget elapsed; the second read of the count is next. -/
  | elapsed
  | answered (outcome : DrainOutcome)

variable {Permit Call : Type} [DecidableEq Permit] [DecidableEq Call]

/-- The gate, the permits granted and not dropped yet, the drain calls, and
what the calls of `close` answered. -/
structure GateHistory (Permit Call : Type) where
  gate : GateState
  permits : Finset Permit
  drains : Call → Option DrainCall
  closes : List Bool

namespace GateHistory

variable (Permit Call) in
def new : GateHistory Permit Call := ⟨.new, ∅, fun _ => none, []⟩

/-- The history after a close, which a drain calls too. -/
def close (history : GateHistory Permit Call) : GateHistory Permit Call :=
  { history with gate := history.gate.close.2, closes := history.closes ++ [history.gate.close.1] }

/-- The history after a drain call has moved. -/
def setDrain (history : GateHistory Permit Call) (call : Call) (place : DrainCall) :
    GateHistory Permit Call :=
  { history with drains := Function.update history.drains call (some place) }

end GateHistory

/-- One atomic step of one thread. -/
inductive GateEvent (Permit Call : Type)
  | granted (permit : Permit)
  | refused (error : KernelError)
  | dropped (permit : Permit)
  | closed (first : Bool)
  | drain (call : Call)
  | drainCloses (call : Call) (first : Bool)
  | drainReads (call : Call)
  | drainWakes (call : Call)
  | drainElapses (call : Call)
  | drainAnswers (call : Call) (outcome : DrainOutcome)

/-- The steps the calls on one gate take, in any interleaving. -/
inductive GateStep : GateHistory Permit Call → GateEvent Permit Call →
    GateHistory Permit Call → Prop
  | granted {history : GateHistory Permit Call} {gate : GateState} (permit : Permit)
      (operation : String) (fresh : permit ∉ history.permits)
      (admitted : history.gate.begin operation = .ok gate) :
      GateStep history (.granted permit)
        { history with gate := gate, permits := insert permit history.permits }
  | refused {history : GateHistory Permit Call} {error : KernelError} (operation : String)
      (rejected : history.gate.begin operation = .error error) :
      GateStep history (.refused error) history
  | dropped {history : GateHistory Permit Call} (permit : Permit)
      (live : permit ∈ history.permits) :
      GateStep history (.dropped permit)
        { history with gate := history.gate.drop, permits := history.permits.erase permit }
  | closed (history : GateHistory Permit Call) :
      GateStep history (.closed history.gate.close.1) history.close
  | drain {history : GateHistory Permit Call} (call : Call)
      (fresh : history.drains call = none) :
      GateStep history (.drain call) (history.setDrain call .called)
  | drainCloses {history : GateHistory Permit Call} (call : Call)
      (place : history.drains call = some .called) :
      GateStep history (.drainCloses call history.gate.close.1)
        (history.close.setDrain call .closed)
  /-- The first read of the count. Zero answers at once. -/
  | drainReads {history : GateHistory Permit Call} (call : Call)
      (place : history.drains call = some .closed) :
      GateStep history (.drainReads call) (history.setDrain call
        (if history.gate.outstanding = 0 then .answered .clean else .waiting))
  /-- The wait observes the count at zero. -/
  | drainWakes {history : GateHistory Permit Call} (call : Call)
      (place : history.drains call = some .waiting) (idle : history.gate.outstanding = 0) :
      GateStep history (.drainWakes call) (history.setDrain call (.answered .clean))
  /-- The wait is polled before the timer, so the budget elapses only where the
  poll saw work in flight. -/
  | drainElapses {history : GateHistory Permit Call} (call : Call)
      (place : history.drains call = some .waiting) (busy : history.gate.outstanding ≠ 0) :
      GateStep history (.drainElapses call) (history.setDrain call .elapsed)
  /-- The second read of the count, after the timer has fired. -/
  | drainAnswers {history : GateHistory Permit Call} (call : Call)
      (place : history.drains call = some .elapsed) :
      GateStep history (.drainAnswers call (.incomplete history.gate.outstanding))
        (history.setDrain call (.answered (.incomplete history.gate.outstanding)))

variable (Permit Call) in
/-- Any number of threads on one gate. -/
def gateSystem : Foundation.TransitionSystem (GateHistory Permit Call) (GateEvent Permit Call) where
  Initial history := history = .new Permit Call
  Step := GateStep

/-! ## What holds in every state -/

namespace GateHistory

/-- One grant at a time, and fewer than `u32Max` permits when it happens. -/
def Room (history : GateHistory Permit Call) : GateEvent Permit Call → Prop
  | .granted _ => history.permits.card < u32Max
  | _ => True

/-- The last permit is not dropped between a drain's timer and its second read
of the count. -/
def OnTime (history : GateHistory Permit Call) : GateEvent Permit Call → Prop
  | .dropped permit =>
      history.permits = {permit} → ∀ call, history.drains call ≠ some .elapsed
  | _ => True

/-- What holds of the gate whatever the interleaving. -/
structure Sound (history : GateHistory Permit Call) : Prop where
  count : history.gate.outstanding = history.permits.card
  closeOnce : history.closes.count true = if history.gate.closed then 1 else 0
  asked : history.closes ≠ [] → history.gate.closed = true
  shut : ∀ call place, history.drains call = some place → place ≠ .called →
    history.gate.closed = true
  cleanIdle : ∀ call, history.drains call = some (.answered .clean) → history.permits = ∅

/-- Every drain whose timer has fired still sees work, and so does every
incomplete answer. -/
structure Prompt (history : GateHistory Permit Call) : Prop where
  busy : ∀ call, history.drains call = some .elapsed → history.permits ≠ ∅
  outstanding : ∀ call units,
    history.drains call = some (.answered (.incomplete units)) → 1 ≤ units

omit [DecidableEq Permit] [DecidableEq Call] in
theorem new_sound : (new Permit Call).Sound where
  count := rfl
  closeOnce := rfl
  asked absent := (absent rfl).elim
  shut := by simp [new]
  cleanIdle := by simp [new]

omit [DecidableEq Permit] [DecidableEq Call] in
theorem new_prompt : (new Permit Call).Prompt where
  busy := by simp [new]
  outstanding := by simp [new]

omit [DecidableEq Permit] in
/-- A call that has moved stands where it moved; the others stand where they
stood. -/
theorem setDrain_drains {history : GateHistory Permit Call} {call other : Call}
    {place found : DrainCall} (stands : (history.setDrain call place).drains other = some found) :
    (other = call ∧ found = place) ∨ (other ≠ call ∧ history.drains other = some found) := by
  by_cases same : other = call
  · subst same
    simp only [setDrain, Function.update_self, Option.some.injEq] at stands
    exact Or.inl ⟨rfl, stands.symm⟩
  · simp only [setDrain, Function.update_of_ne same] at stands
    exact Or.inr ⟨same, stands⟩

omit [DecidableEq Permit] in
/-- Moving a drain call keeps soundness, provided the place it moves to is
justified by the gate. -/
theorem Sound.setDrain {history : GateHistory Permit Call} (sound : history.Sound) {call : Call}
    {place : DrainCall} (closed : place ≠ .called → history.gate.closed = true)
    (clean : place = .answered .clean → history.permits = ∅) :
    (history.setDrain call place).Sound where
  count := sound.count
  closeOnce := sound.closeOnce
  asked := sound.asked
  shut other found stands moved := by
    rcases setDrain_drains stands with ⟨_, rfl⟩ | ⟨_, before⟩
    · exact closed moved
    · exact sound.shut other found before moved
  cleanIdle other stands := by
    rcases setDrain_drains stands with ⟨_, same⟩ | ⟨_, before⟩
    · exact clean same.symm
    · exact sound.cleanIdle other before

omit [DecidableEq Permit] [DecidableEq Call] in
@[simp] theorem close_closed (history : GateHistory Permit Call) :
    history.close.gate.closed = true := by
  simp only [close, GateState.close]
  split
  · assumption
  · rfl

omit [DecidableEq Permit] [DecidableEq Call] in
@[simp] theorem close_outstanding (history : GateHistory Permit Call) :
    history.close.gate.outstanding = history.gate.outstanding := by
  simp only [close, GateState.close]
  split <;> rfl

omit [DecidableEq Permit] [DecidableEq Call] in
/-- Closing keeps soundness: only the call that finds the gate open answers
true. -/
theorem Sound.close {history : GateHistory Permit Call} (sound : history.Sound) :
    history.close.Sound where
  count := by rw [close_outstanding]; exact sound.count
  closeOnce := by
    rw [close_closed, if_pos rfl]
    simp only [GateHistory.close, List.count_append, sound.closeOnce, GateState.close]
    split <;> simp
  asked _ := close_closed history
  shut _ _ _ _ := close_closed history
  cleanIdle := sound.cleanIdle

/-- A grant is counted exactly: the gate is open, and the count does not
saturate below the largest `u32`. -/
theorem begin_ok {gate after : GateState} {operation : String}
    (admitted : gate.begin operation = .ok after) :
    gate.closed = false ∧
      after = { gate with outstanding := saturatingAdd gate.outstanding 1 } := by
  unfold GateState.begin at admitted
  split at admitted
  · cases admitted
  · next shut => exact ⟨Bool.eq_false_iff.mpr shut, (Except.ok.inj admitted).symm⟩

/-- **Soundness is preserved by every step** of every thread. -/
theorem Sound.step {before after : GateHistory Permit Call} {event : GateEvent Permit Call}
    (sound : before.Sound) (step : GateStep before event after) (room : before.Room event) :
    after.Sound := by
  cases step with
  | granted permit operation fresh admitted =>
      obtain ⟨shut, rfl⟩ := begin_ok admitted
      refine ⟨?_, sound.closeOnce, sound.asked, sound.shut, ?_⟩
      · simp only [Finset.card_insert_of_notMem fresh, sound.count, saturatingAdd]
        exact Nat.min_eq_left room
      · -- A clean answer closed the gate, and this gate is open.
        intro call answered
        have closed := sound.shut call _ answered (by simp)
        rw [shut] at closed
        cases closed
  | refused => exact sound
  | dropped permit live =>
      refine ⟨?_, sound.closeOnce, sound.asked, sound.shut, ?_⟩
      · simp only [GateState.drop, Finset.card_erase_of_mem live, sound.count]
      · intro call answered
        rw [sound.cleanIdle call answered] at live
        exact (Finset.notMem_empty permit live).elim
  | closed => exact sound.close
  | drain call fresh => exact sound.setDrain (fun moved => (moved rfl).elim) (by simp)
  | drainCloses call place => exact sound.close.setDrain (fun _ => close_closed before) (by simp)
  | drainReads call place =>
      refine sound.setDrain (fun _ => sound.shut call _ place (by simp)) ?_
      split
      · next idle =>
          intro _
          rw [sound.count] at idle
          exact Finset.card_eq_zero.mp idle
      · simp
  | drainWakes call place idle =>
      refine sound.setDrain (fun _ => sound.shut call _ place (by simp)) ?_
      intro _
      rw [sound.count] at idle
      exact Finset.card_eq_zero.mp idle
  | drainElapses call place busy =>
      exact sound.setDrain (fun _ => sound.shut call _ place (by simp)) (by simp)
  | drainAnswers call place =>
      exact sound.setDrain (fun _ => sound.shut call _ place (by simp)) (by simp)

omit [DecidableEq Permit] in
/-- Moving a drain call keeps promptness, provided the place it moves to sees
work. -/
theorem Prompt.setDrain {history : GateHistory Permit Call} (prompt : history.Prompt) {call : Call}
    {place : DrainCall} (elapsed : place = .elapsed → history.permits ≠ ∅)
    (units : ∀ count, place = .answered (.incomplete count) → 1 ≤ count) :
    (history.setDrain call place).Prompt where
  busy other stands := by
    rcases setDrain_drains stands with ⟨_, same⟩ | ⟨_, before⟩
    · exact elapsed same.symm
    · exact prompt.busy other before
  outstanding other count stands := by
    rcases setDrain_drains stands with ⟨_, same⟩ | ⟨_, before⟩
    · exact units count same.symm
    · exact prompt.outstanding other count before

/-- Promptness is preserved by every step that does not drop the last permit
under a drain whose timer has fired. -/
theorem Prompt.step {before after : GateHistory Permit Call} {event : GateEvent Permit Call}
    (prompt : before.Prompt) (sound : before.Sound) (step : GateStep before event after)
    (onTime : before.OnTime event) : after.Prompt := by
  cases step with
  | granted permit operation fresh admitted =>
      exact ⟨fun _ _ => Finset.insert_ne_empty _ _, prompt.outstanding⟩
  | refused => exact prompt
  | dropped permit live =>
      refine ⟨?_, prompt.outstanding⟩
      intro call fired empty
      have last : before.permits = {permit} := by
        rcases (Finset.erase_eq_empty_iff _ _).mp empty with none | one
        · exact (prompt.busy call fired none).elim
        · exact one
      exact onTime last call fired
  | closed => exact ⟨prompt.busy, prompt.outstanding⟩
  | drain call fresh => exact prompt.setDrain (by simp) (by simp)
  | drainCloses call place =>
      have closed : before.close.Prompt := ⟨prompt.busy, prompt.outstanding⟩
      exact closed.setDrain (by simp) (by simp)
  | drainReads call place =>
      refine prompt.setDrain ?_ ?_ <;> split <;> simp
  | drainWakes call place idle => exact prompt.setDrain (by simp) (by simp)
  | drainElapses call place busy =>
      refine prompt.setDrain ?_ (by simp)
      rintro _ empty
      rw [sound.count, empty] at busy
      exact busy rfl
  | drainAnswers call place =>
      refine prompt.setDrain (by simp) ?_
      intro count same
      cases same
      rw [sound.count]
      exact Finset.card_pos.mpr (Finset.nonempty_iff_ne_empty.mpr (prompt.busy call place))

/-- The gate is closed and idle for good, and a drain whose timer has fired can
only report no work. -/
structure Overtaken (history : GateHistory Permit Call) (call : Call) : Prop where
  closed : history.gate.closed = true
  idle : history.gate.outstanding = 0
  empty : history.permits = ∅
  place : history.drains call = some .elapsed ∨
    history.drains call = some (.answered (.incomplete 0))

omit [DecidableEq Permit] in
/-- A call that stands still is overtaken still. -/
private theorem Overtaken.setDrain_ne {history : GateHistory Permit Call} {call other : Call}
    {place : DrainCall} (overtaken : history.Overtaken call) (different : call ≠ other) :
    (history.setDrain other place).Overtaken call :=
  ⟨overtaken.closed, overtaken.idle, overtaken.empty, by
    simpa only [setDrain, Function.update_of_ne different] using overtaken.place⟩

theorem Overtaken.step {before after : GateHistory Permit Call} {event : GateEvent Permit Call}
    {call : Call} (overtaken : before.Overtaken call) (step : GateStep before event after) :
    after.Overtaken call := by
  have elsewhere : ∀ {other : Call} {place : DrainCall}, before.drains other = some place →
      place ≠ .elapsed → (∀ outcome, place ≠ .answered outcome) → call ≠ other := by
    rintro other place stands pending unanswered rfl
    rcases overtaken.place with fired | answered
    · rw [fired] at stands
      exact pending (Option.some.inj stands).symm
    · rw [answered] at stands
      exact unanswered _ (Option.some.inj stands).symm
  cases step with
  | granted permit operation fresh admitted =>
      obtain ⟨open_, _⟩ := begin_ok admitted
      rw [overtaken.closed] at open_
      cases open_
  | refused => exact overtaken
  | dropped permit live =>
      rw [overtaken.empty] at live
      exact (Finset.notMem_empty permit live).elim
  | closed =>
      exact ⟨close_closed before, (close_outstanding before).trans overtaken.idle,
        overtaken.empty, overtaken.place⟩
  | drain other fresh =>
      apply overtaken.setDrain_ne
      rintro rfl
      rcases overtaken.place with fired | answered
      · rw [fired] at fresh; cases fresh
      · rw [answered] at fresh; cases fresh
  | drainCloses other place =>
      have closed : before.close.Overtaken call :=
        ⟨close_closed before, (close_outstanding before).trans overtaken.idle,
          overtaken.empty, overtaken.place⟩
      exact closed.setDrain_ne (elsewhere place (by simp) (by simp))
  | drainReads other place => exact overtaken.setDrain_ne (elsewhere place (by simp) (by simp))
  | drainWakes other place => exact overtaken.setDrain_ne (elsewhere place (by simp) (by simp))
  | drainElapses other place => exact overtaken.setDrain_ne (elsewhere place (by simp) (by simp))
  | drainAnswers other place =>
      by_cases same : call = other
      · subst same
        refine ⟨overtaken.closed, overtaken.idle, overtaken.empty, Or.inr ?_⟩
        simp only [setDrain, Function.update_self, overtaken.idle]
      · exact overtaken.setDrain_ne same

/-- Nothing is admitted in a run that starts at a closed gate. -/
theorem closed_run {history later : GateHistory Permit Call} {events : List (GateEvent Permit Call)}
    (run : (gateSystem Permit Call).Run history events later)
    (closed : history.gate.closed = true) :
    later.gate.closed = true ∧ ∀ permit, .granted permit ∉ events := by
  induction run with
  | refl => exact ⟨closed, by simp⟩
  | @snoc events before after event previous step ih =>
      obtain ⟨shut, none⟩ := ih
      have kept : after.gate.closed = true ∧ ∀ permit, event ≠ .granted permit := by
        cases step with
        | granted permit operation fresh admitted =>
            obtain ⟨open_, _⟩ := begin_ok admitted
            rw [shut] at open_
            cases open_
        | closed => exact ⟨close_closed before, by simp⟩
        | drainCloses => exact ⟨close_closed before, by simp⟩
        | refused | dropped | drain | drainReads | drainWakes | drainElapses | drainAnswers =>
            exact ⟨shut, by simp⟩
      refine ⟨kept.1, ?_⟩
      intro permit member
      rcases List.mem_append.mp member with earlier | now
      · exact none permit earlier
      · exact kept.2 permit (List.mem_singleton.mp now).symm

/-- What the gate promises in a state: the count is the number of live permits,
nothing is admitted once it is closed, exactly one of the calls of `close`
answered true, a clean drain means a closed gate with no live permit, and an
incomplete one names work. -/
structure Promises (history : GateHistory Permit Call) : Prop where
  count : history.gate.outstanding = history.permits.card
  sealed : history.gate.closed = true → ∀ events later,
    (gateSystem Permit Call).Run history events later → ∀ permit, .granted permit ∉ events
  oneClose : history.closes ≠ [] → history.closes.count true = 1
  clean : ∀ call, history.drains call = some (.answered .clean) →
    history.gate.closed = true ∧ history.permits = ∅
  incomplete : ∀ call units, history.drains call = some (.answered (.incomplete units)) → 1 ≤ units

theorem Sound.promises {history : GateHistory Permit Call} (sound : history.Sound)
    (prompt : history.Prompt) : history.Promises where
  count := sound.count
  sealed closed _ _ run := (closed_run run closed).2
  oneClose asked := by rw [sound.closeOnce, sound.asked asked, if_pos rfl]
  clean call answered := ⟨sound.shut call _ answered (by simp), sound.cleanIdle call answered⟩
  incomplete := prompt.outstanding

/-- The gate with fewer than `u32Max` permits outstanding at every grant. -/
abbrev bounded (Permit Call : Type) [DecidableEq Permit] [DecidableEq Call] :
    Foundation.TransitionSystem (GateHistory Permit Call) (GateEvent Permit Call) :=
  (gateSystem Permit Call).restrict Room

theorem bounded_sound {history : GateHistory Permit Call}
    (reachable : (bounded Permit Call).Reachable history) : history.Sound :=
  reachable.rec_on (fun _ start => start ▸ new_sound)
    (fun _ _ _ _ sound step => sound.step step.1 step.2)

end GateHistory

open GateHistory in
/-- **The gate keeps its promises where no last permit is dropped late.** In
every run in which no permit drop takes the count to zero between a drain's
timer and its second read, every state keeps them; and after such a drop the
drain has no answer left but an incomplete one with no work outstanding. -/
theorem gate_promises_without_late_drop :
    (∀ history, ((bounded Permit Call).restrict OnTime).Reachable history → history.Promises) ∧
    ∀ before event after, (bounded Permit Call).Reachable before →
      (bounded Permit Call).Step before event after → ¬ before.OnTime event →
      ∃ call, after.drains call = some .elapsed ∧
        ∀ events later, (gateSystem Permit Call).Run after events later →
          later.drains call = some .elapsed ∨
            later.drains call = some (.answered (.incomplete 0)) := by
  constructor
  · intro history reachable
    have prompt : history.Prompt := reachable.rec_on (fun _ start => start ▸ new_prompt)
      (fun _ _ _ earlier prompt step =>
        prompt.step (bounded_sound earlier.of_restrict) step.1.1 step.2)
    exact (bounded_sound reachable.of_restrict).promises prompt
  · intro before event after reachable step late
    cases event with
    | dropped permit =>
        simp only [OnTime, not_forall, not_not] at late
        obtain ⟨last, call, fired⟩ := late
        have sound := bounded_sound reachable
        have closed := sound.shut call _ fired (by simp)
        refine ⟨call, ?_, ?_⟩
        · cases step.1 with
          | dropped => exact fired
        · intro events later run
          have overtaken : after.Overtaken call := by
            cases step.1 with
            | dropped _ live =>
                refine ⟨closed, ?_, ?_, Or.inl fired⟩
                · simp [GateState.drop, sound.count, last]
                · simp [last]
          have stable : (gateSystem Permit Call).Stable (Overtaken · call) :=
            fun _ _ _ overtaken step => overtaken.step step
          exact (stable.run run overtaken).place
    | granted | refused | closed | drain | drainCloses | drainReads | drainWakes | drainElapses
      | drainAnswers => exact (late trivial).elim

open GateHistory in
/-- A drain that waits for one permit and is woken by its drop. -/
theorem gate_promises_after_wait :
    ∃ history : GateHistory Nat Nat, history.drains 0 = some (.answered .clean) ∧
      history.Promises := by
  have begun : ((bounded Nat Nat).restrict OnTime).Run (new Nat Nat) [.granted 0] _ :=
    .single ⟨⟨.granted 0 "request" (by simp [new]) rfl, by simp [Room, new, u32Max]⟩, trivial⟩
  have called := begun.snoc ⟨⟨.drain 0 (by rfl), trivial⟩, trivial⟩
  have closed := called.snoc ⟨⟨.drainCloses 0 (by rfl), trivial⟩, trivial⟩
  have read := closed.snoc ⟨⟨.drainReads 0 (by rfl), trivial⟩, trivial⟩
  have dropped := read.snoc ⟨⟨.dropped 0 (by decide), trivial⟩, by
    intro _ call fired
    rcases setDrain_drains fired with ⟨_, same⟩ | ⟨other, before⟩
    · cases same
    · simp [setDrain, close, new, other] at before⟩
  have woken := dropped.snoc ⟨⟨.drainWakes 0 (by rfl) (by rfl), trivial⟩, trivial⟩
  exact ⟨_, rfl, gate_promises_without_late_drop.1 _ ⟨_, _, rfl, woken⟩⟩

open GateHistory in
/-- The last permit is dropped after a drain's timer has fired: the drain
reports an incomplete drain with nothing outstanding. -/
theorem gate_late_drop_reports_nothing :
    ¬ ∀ history, (bounded Nat Nat).Reachable history →
      ∀ call units, history.drains call = some (.answered (.incomplete units)) → 1 ≤ units := by
  intro claim
  have begun : (bounded Nat Nat).Run (new Nat Nat) [.granted 0] _ :=
    .single ⟨.granted 0 "request" (by simp [new]) rfl, by simp [Room, new, u32Max]⟩
  have called := begun.snoc ⟨.drain 0 (by rfl), trivial⟩
  have closed := called.snoc ⟨.drainCloses 0 (by rfl), trivial⟩
  have read := closed.snoc ⟨.drainReads 0 (by rfl), trivial⟩
  have fired := read.snoc ⟨.drainElapses 0 (by rfl) (by decide), trivial⟩
  have dropped := fired.snoc ⟨.dropped 0 (by decide), trivial⟩
  have answered := dropped.snoc ⟨.drainAnswers 0 (by rfl), trivial⟩
  have outstanding := claim _ ⟨_, _, rfl, answered⟩ 0 0 rfl
  omega

end Renvor
