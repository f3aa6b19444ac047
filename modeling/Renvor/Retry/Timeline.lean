import Mathlib.Tactic.ByContra
import Renvor.Retry.Retry

/-! # What a call of the helper does

One turn of the loop starts an attempt or finds the deadline past, and every turn
that goes on has announced a retry (`Renvor.Retry.Call.Sound`). Where the attempts
would begin if nothing bounded the whole is a sum over what the operation and the
schedule do.
-/

namespace Renvor.Retry

variable {Failure Value : Type}

namespace Entry

/-- The number of an attempt that started. -/
def number : Entry Failure → Option Nat
  | attempted attempt _ _ _ => some attempt
  | _ => none

def failure : Entry Failure → Option Failure
  | attempted _ _ _ (.failed failure) => some failure
  | _ => none

def stop : Entry Failure → Option Nat
  | attempted _ _ stop _ | slept _ stop => some stop
  | _ => none

def retrying : Entry Failure → Bool
  | warned event => event.message = retryingMessage
  | _ => false

def counting : Entry Failure → Bool
  | counted _ _ => true
  | _ => false

end Entry

namespace Call

open Foundation

variable (call : Call Failure Value)

/-- An attempt does not return within the attempt timeout. -/
def Overruns (attempt : Nat) : Prop :=
  ∀ after outcome, call.run attempt = .gives after outcome → call.policy.attemptTimeout < after

/-- An attempt fails retryably, and the schedule has a delay after it. -/
def Retried (attempt : Nat) : Prop :=
  (call.Overruns attempt ∨ ∃ after failure, call.run attempt = .gives after (.error failure) ∧
    after ≤ call.policy.attemptTimeout ∧ call.classify failure = .retryable) ∧
  (call.policy.delay call.jittered attempt).isSome

/-- The time an attempt takes under the attempt timeout. -/
def spent (attempt : Nat) : Nat := ((call.run attempt).timeout call.policy.attemptTimeout).1

/-- When the attempt after so many others begins, if every delay is slept in full. -/
def begins : Nat → Nat
  | 0 => call.started
  | earlier + 1 => begins earlier + call.spent (earlier + 1) +
      (call.policy.delay call.jittered (earlier + 1)).getD 0

/-- A time before the deadline. -/
def Early (now : Nat) : Prop := ∀ deadline, call.deadline = some deadline → now < deadline

/-- An attempt from a time on is not cut by the deadline. -/
def InTime (now attempt : Nat) : Prop := ∀ deadline, call.deadline = some deadline →
  now + call.spent attempt ≤ deadline ∧
    (call.Overruns attempt → now + call.spent attempt < deadline)

/-- A time, or the deadline where that is earlier. -/
def clamp (time : Nat) : Nat := match call.deadline with
  | some deadline => min time deadline
  | none => time

/-- A failure of an attempt that the deadline does not cut. -/
inductive Fell (attempt now : Nat) (last : Option Failure) :
    Nat → Ending Failure → RetryClass → Option Failure → Prop
  | returned {after : Nat} {failure : Failure} (gives : call.run attempt = .gives after (.error failure))
      (timely : after ≤ call.policy.attemptTimeout) :
      Fell attempt now last (now + after) (.failed failure) (call.classify failure) (some failure)
  | timedOut (overruns : call.Overruns attempt) :
      Fell attempt now last (now + call.policy.attemptTimeout) .timedOut .retryable last

/-- What becomes of a failure. -/
inductive Failed (attempt : Nat) (class' : RetryClass) (progress : Progress Failure) :
    Turn (Progress Failure) (Ran Failure Value) → Prop
  | terminal {event : RetryEvent} (terminal : class' = .terminal)
      (unannounced : event.message ≠ retryingMessage) :
      Failed attempt class' progress (.stop ⟨progress.log ++ [.warned event],
        .error ⟨attempt, .terminal, progress.last⟩⟩)
  | last {event : RetryEvent} (retryable : class' = .retryable)
      (last : attempt = call.policy.maxAttempts) (unannounced : event.message ≠ retryingMessage) :
      Failed attempt class' progress (.stop ⟨progress.log ++ [.warned event], .error ⟨attempt,
        if progress.last.isNone then .attemptTimedOut else .attemptsExhausted, progress.last⟩⟩)
  | unjittered (retryable : class' = .retryable) (more : attempt ≠ call.policy.maxAttempts)
      (unscheduled : call.policy.delay call.jittered attempt = none) :
      Failed attempt class' progress (.stop ⟨progress.log,
        .error ⟨attempt, .entropyUnavailable, progress.last⟩⟩)
  | again {delay : Nat} {event : RetryEvent} {labels : List (String × String)}
      (retryable : class' = .retryable) (more : attempt ≠ call.policy.maxAttempts)
      (scheduled : call.policy.delay call.jittered attempt = some delay)
      (announced : event.message = retryingMessage) :
      Failed attempt class' progress (.again ⟨call.clamp (progress.now + delay), progress.last,
        progress.log ++ .warned event :: ((if call.retries then [.counted labels 1] else []) ++
          [.slept progress.now (call.clamp (progress.now + delay))])⟩)

/-- What one turn can do. -/
inductive Turned (earlier : Nat) (progress : Progress Failure) :
    Turn (Progress Failure) (Ran Failure Value) → Prop
  | late {deadline : Nat} (known : call.deadline = some deadline) (past : deadline ≤ progress.now) :
      Turned earlier progress (.stop ⟨progress.log,
        .error ⟨earlier, .deadlineExceeded, progress.last⟩⟩)
  | succeeded {after : Nat} {value : Value} (early : call.Early progress.now)
      (gives : call.run (earlier + 1) = .gives after (.ok value))
      (timely : after ≤ call.policy.attemptTimeout)
      (within : ∀ deadline, call.deadline = some deadline → progress.now + after ≤ deadline) :
      Turned earlier progress (.stop ⟨progress.log ++
        [.attempted (earlier + 1) progress.now (progress.now + after) .succeeded], .ok value⟩)
  | cutShort {deadline : Nat} {event : RetryEvent} (known : call.deadline = some deadline)
      (early : progress.now < deadline) (cut : ¬ call.InTime progress.now (earlier + 1))
      (unannounced : event.message ≠ retryingMessage) :
      Turned earlier progress (.stop ⟨progress.log ++
        [.attempted (earlier + 1) progress.now deadline .cutShort, .warned event],
        .error ⟨earlier + 1, .deadlineExceeded, progress.last⟩⟩)
  | fell {stop : Nat} {ending : Ending Failure} {class' : RetryClass} {last : Option Failure}
      {turn : Turn (Progress Failure) (Ran Failure Value)} (early : call.Early progress.now)
      (inTime : call.InTime progress.now (earlier + 1))
      (fell : call.Fell (earlier + 1) progress.now progress.last stop ending class' last)
      (fails : call.Failed (earlier + 1) class'
        ⟨stop, last, progress.log ++ [.attempted (earlier + 1) progress.now stop ending]⟩ turn) :
      Turned earlier progress turn

variable {call} {attempt earlier now : Nat} {progress : Progress Failure}

theorem spent_gives {after : Nat} {outcome : Except Failure Value}
    (gives : call.run attempt = .gives after outcome)
    (timely : after ≤ call.policy.attemptTimeout) : call.spent attempt = after := by
  simp only [spent, gives, Attempt.timeout, if_pos timely]

theorem not_overruns {after : Nat} {outcome : Except Failure Value}
    (gives : call.run attempt = .gives after outcome)
    (timely : after ≤ call.policy.attemptTimeout) : ¬ call.Overruns attempt := fun overruns =>
  Nat.not_lt.mpr timely (overruns after outcome gives)

theorem spent_overruns (overruns : call.Overruns attempt) :
    call.spent attempt = call.policy.attemptTimeout := by
  unfold spent
  cases gives : call.run attempt with
  | hangs => rfl
  | gives after outcome =>
      simp only [Attempt.timeout, if_neg (Nat.not_le.mpr (overruns after outcome gives))]

/-- An attempt gives an outcome in time, or overruns its timeout. -/
theorem gives_or_overruns : (∃ after outcome, call.run attempt = .gives after outcome ∧
    after ≤ call.policy.attemptTimeout) ∨ call.Overruns attempt := by
  cases gives : call.run attempt with
  | hangs => exact .inr fun after outcome other => nomatch gives.symm.trans other
  | gives after outcome =>
      by_cases timely : after ≤ call.policy.attemptTimeout
      · exact .inl ⟨after, outcome, rfl, timely⟩
      · refine .inr fun other _ same => ?_
        cases gives.symm.trans same
        exact Nat.not_le.mp timely

/-- An outcome within the bound is the attempt's own. -/
theorem timeout_some {bound elapsed : Nat} {attempt : Attempt Failure Value}
    {outcome : Except Failure Value} (given : attempt.timeout bound = (elapsed, some outcome)) :
    attempt = .gives elapsed outcome ∧ elapsed ≤ bound := by
  cases attempt with
  | hangs => cases given
  | gives after result =>
      by_cases timely : after ≤ bound
      · simp only [Attempt.timeout, if_pos timely, Prod.mk.injEq, Option.some.injEq] at given
        obtain ⟨rfl, rfl⟩ := given
        exact ⟨rfl, timely⟩
      · simp [Attempt.timeout, if_neg timely] at given

theorem timeout_none {bound elapsed : Nat} {attempt : Attempt Failure Value}
    (cut : attempt.timeout bound = (elapsed, none)) : elapsed = bound ∧
      ∀ after outcome, attempt = .gives after outcome → bound < after := by
  cases attempt with
  | hangs =>
      cases cut
      exact ⟨rfl, nofun⟩
  | gives after result =>
      by_cases timely : after ≤ bound
      · simp [Attempt.timeout, if_pos timely] at cut
      · simp only [Attempt.timeout, if_neg timely, Prod.mk.injEq, and_true] at cut
        refine ⟨cut.symm, fun other _ same => ?_⟩
        cases same
        exact Nat.not_le.mp timely

/-- The bound of an attempt is the attempt timeout or, where it governs, what the
deadline leaves. -/
theorem bound_cases {bound : Nat} {governs : Bool} (bounded : call.bound now = some (bound, governs)) :
    call.Early now ∧ bound ≤ call.policy.attemptTimeout ∧
      (∀ deadline, call.deadline = some deadline → now + bound ≤ deadline) ∧
      (governs = true → ∃ deadline, call.deadline = some deadline ∧ now + bound = deadline) ∧
      (governs = false → bound = call.policy.attemptTimeout ∧
        ∀ deadline, call.deadline = some deadline → now + bound < deadline) := by
  unfold Call.bound at bounded
  split at bounded
  next deadline known =>
    dsimp only at bounded
    split at bounded
    next => cases bounded
    next some =>
      split at bounded
      next shorter =>
        cases bounded
        refine ⟨?_, shorter, ?_, fun _ => ⟨deadline, known, by omega⟩, nofun⟩
        · rintro other same
          cases known.symm.trans same
          omega
        · rintro other same
          cases known.symm.trans same
          omega
      next longer =>
        cases bounded
        refine ⟨?_, Nat.le_refl _, ?_, nofun, fun _ => ⟨rfl, ?_⟩⟩
        all_goals
          rintro other same
          cases known.symm.trans same
          omega
  next unknown =>
    cases bounded
    have none : ∀ {deadline}, call.deadline ≠ some deadline := fun same =>
      nomatch unknown.symm.trans same
    exact ⟨fun _ same => (none same).elim, Nat.le_refl _, fun _ same => (none same).elim, nofun,
      fun _ => ⟨rfl, fun _ same => (none same).elim⟩⟩

theorem bound_none (unbounded : call.bound now = none) :
    ∃ deadline, call.deadline = some deadline ∧ deadline ≤ now := by
  unfold Call.bound at unbounded
  split at unbounded
  next deadline known =>
    dsimp only at unbounded
    split at unbounded
    next none => exact ⟨deadline, known, by omega⟩
    next => split at unbounded <;> cases unbounded
  next => cases unbounded

theorem failed_failed {class' : RetryClass} {label : String}
    (within : ∀ deadline, call.deadline = some deadline → progress.now ≤ deadline) :
    call.Failed attempt class' progress (call.failed attempt class' label progress) := by
  unfold failed
  cases class' with
  | terminal =>
      refine .terminal rfl ?_
      show "operation failed and will not be retried" ≠ "operation failed; retrying after a delay"
      decide
  | retryable =>
      by_cases last : attempt = call.policy.maxAttempts
      · rw [if_neg nofun, if_pos last]
        refine .last rfl last ?_
        show "operation failed on its last attempt" ≠ "operation failed; retrying after a delay"
        decide
      · rw [if_neg nofun, if_neg last]
        cases scheduled : call.policy.delay call.jittered attempt with
        | none => exact .unjittered rfl last scheduled
        | some delay =>
            have clamped : progress.now + call.clampedDelay progress.now delay =
                call.clamp (progress.now + delay) := by
              unfold clamp clampedDelay
              cases known : call.deadline with
              | none => rfl
              | some deadline =>
                  have le := within deadline known
                  dsimp only
                  omega
            dsimp only
            rw [clamped]
            exact .again rfl last scheduled rfl

theorem Fell.stop_eq {last last' : Option Failure} {stop : Nat} {ending : Ending Failure}
    {class' : RetryClass} (fell : call.Fell attempt now last stop ending class' last') :
    stop = now + call.spent attempt := by
  cases fell with
  | returned gives timely => rw [spent_gives gives timely]
  | timedOut overruns => rw [spent_overruns overruns]

theorem turn_turned : call.Turned earlier progress (call.turn earlier progress) := by
  have fell : ∀ {stop ending class' label last}, call.Early progress.now →
      call.InTime progress.now (earlier + 1) →
      call.Fell (earlier + 1) progress.now progress.last stop ending class' last →
      call.Turned earlier progress (call.failed (earlier + 1) class' label
        ⟨stop, last, progress.log ++ [.attempted (earlier + 1) progress.now stop ending]⟩) := by
    intro stop ending class' label last early inTime fell
    refine .fell early inTime fell (failed_failed fun deadline known => ?_)
    rw [fell.stop_eq]
    exact (inTime deadline known).1
  unfold turn
  dsimp only
  cases bounded : call.bound progress.now with
  | none =>
      obtain ⟨deadline, known, past⟩ := bound_none bounded
      exact .late known past
  | some pair =>
      obtain ⟨bound, governs⟩ := pair
      obtain ⟨early, shorter, within, reached, own⟩ := bound_cases bounded
      dsimp only
      cases ends : (call.run (earlier + 1)).timeout bound with
      | mk elapsed result =>
          cases result with
          | some outcome =>
              obtain ⟨gives, timely⟩ := timeout_some ends
              have inTime : call.InTime progress.now (earlier + 1) := by
                intro deadline known
                have le := within deadline known
                rw [spent_gives gives (by omega)]
                refine ⟨by omega, fun overruns => ?_⟩
                exact (not_overruns gives (by omega) overruns).elim
              cases outcome with
              | ok value =>
                  refine .succeeded early gives (by omega) fun deadline known => ?_
                  have le := within deadline known
                  omega
              | error failure => exact fell early inTime (.returned gives (by omega))
          | none =>
              obtain ⟨rfl, late⟩ := timeout_none ends
              dsimp only
              cases governs with
              | true =>
                  obtain ⟨deadline, known, rfl⟩ := reached rfl
                  refine .cutShort known (early _ known) (fun inTime => ?_) ?_
                  · obtain ⟨le, lt⟩ := inTime _ known
                    obtain ⟨after, outcome, gives, timely⟩ | overruns :=
                      @gives_or_overruns _ _ call (earlier + 1)
                    · rw [spent_gives gives timely] at le
                      have := late after outcome gives
                      omega
                    · have lt := lt overruns
                      rw [spent_overruns overruns] at lt
                      omega
                  · show "operation was cut by the overall deadline" ≠
                      "operation failed; retrying after a delay"
                    decide
              | false =>
                  obtain ⟨same, lt⟩ := own rfl
                  subst same
                  have overruns : call.Overruns (earlier + 1) := late
                  refine fell early (fun deadline known => ?_) (.timedOut overruns)
                  have lt := lt deadline known
                  rw [spent_overruns overruns]
                  exact ⟨by omega, fun _ => lt⟩

/-! ## A whole call -/

/-- What a log says: its attempts in order, its retries, that nothing in it passes
the deadline, and the last failure. -/
structure Logged (call : Call Failure Value) (log : List (Entry Failure)) (attempts retries : Nat)
    (last : Option Failure) : Prop where
  numbered : log.filterMap Entry.number = List.range' 1 attempts
  retrying : log.countP Entry.retrying = retries
  counting : call.retries = true → log.countP Entry.counting = retries
  within : ∀ deadline, call.deadline = some deadline →
    ∀ entry ∈ log, ∀ stop, entry.stop = some stop → stop ≤ deadline
  last : last = (log.filterMap Entry.failure).getLast?

section Logged

variable {log : List (Entry Failure)} {attempts retries : Nat} {last : Option Failure}

theorem Logged.nil : call.Logged [] 0 0 none :=
  ⟨rfl, rfl, fun _ => rfl, fun _ _ _ member => (nomatch member), rfl⟩

/-- An attempt leaves a failure behind, or the one before. -/
theorem Logged.attempted (logged : call.Logged log attempts retries last) {start stop : Nat}
    {ending : Ending Failure} (within : ∀ deadline, call.deadline = some deadline → stop ≤ deadline) :
    call.Logged (log ++ [.attempted (attempts + 1) start stop ending]) (attempts + 1) retries
      ((Entry.attempted (attempts + 1) start stop ending).failure.or last) where
  numbered := by
    rw [List.filterMap_append, logged.numbered, List.range'_1_concat, Nat.add_comm 1]
    rfl
  retrying := by
    rw [List.countP_append, logged.retrying]
    rfl
  counting counted := by
    rw [List.countP_append, logged.counting counted]
    rfl
  within deadline known := by
    refine List.forall_mem_append.mpr ⟨logged.within deadline known, fun entry member other same => ?_⟩
    obtain rfl := List.mem_singleton.mp member
    cases same
    exact within deadline known
  last := by
    rw [List.filterMap_append, logged.last]
    cases ending <;> simp [Entry.failure]

theorem Logged.warn (logged : call.Logged log attempts retries last) {event : RetryEvent}
    (unannounced : event.message ≠ retryingMessage) :
    call.Logged (log ++ [.warned event]) attempts retries last where
  numbered := by
    rw [List.filterMap_append, logged.numbered]
    exact List.append_nil _
  retrying := by
    rw [List.countP_append, logged.retrying]
    simp [Entry.retrying, unannounced]
  counting counted := by
    rw [List.countP_append, logged.counting counted]
    rfl
  within deadline known := by
    refine List.forall_mem_append.mpr ⟨logged.within deadline known, fun entry member other same => ?_⟩
    obtain rfl := List.mem_singleton.mp member
    cases same
  last := by
    rw [List.filterMap_append, logged.last]
    simp [Entry.failure]

theorem clamp_le {time deadline : Nat} (known : call.deadline = some deadline) :
    call.clamp time ≤ deadline := by
  unfold clamp
  rw [known]
  exact Nat.min_le_right _ _

theorem Logged.announce (logged : call.Logged log attempts retries last) {event : RetryEvent}
    {labels : List (String × String)} {start time : Nat}
    (announced : event.message = retryingMessage) :
    call.Logged (log ++ .warned event :: ((if call.retries then [.counted labels 1] else []) ++
      [.slept start (call.clamp time)])) attempts (retries + 1) last where
  numbered := by
    rw [List.filterMap_append, logged.numbered]
    split <;> exact List.append_nil _
  retrying := by
    rw [List.countP_append, logged.retrying]
    split <;> simp [Entry.retrying, announced]
  counting counted := by
    rw [List.countP_append, logged.counting counted, if_pos counted]
    rfl
  within deadline known := by
    refine List.forall_mem_append.mpr ⟨logged.within deadline known, fun entry member other same => ?_⟩
    have slept : entry = .slept start (call.clamp time) := by
      split at member <;> simp only [List.mem_cons, List.mem_append, List.not_mem_nil, or_false,
        List.nil_append] at member <;> grind [Entry.stop]
    subst slept
    cases same
    exact clamp_le known
  last := by
    rw [List.filterMap_append, logged.last]
    split <;> exact (congrArg List.getLast? (List.append_nil _)).symm

end Logged

/-- Between two attempts: every earlier one began and ended before the deadline, and
was announced to be retried. -/
structure Sound (call : Call Failure Value) (earlier : Nat) (progress : Progress Failure) :
    Prop where
  clock : progress.now = call.clamp (call.begins earlier)
  retried : ∀ round < earlier, call.Retried (round + 1) ∧ call.Early (call.begins round) ∧
    call.InTime (call.begins round) (round + 1)
  logged : call.Logged progress.log earlier earlier progress.last
  classed : ∀ failure ∈ progress.log.filterMap Entry.failure, call.classify failure = .retryable
  unreturned : progress.last = none ↔ ∀ round < earlier, call.Overruns (round + 1)

theorem sound_start : call.Sound 0 ⟨call.started, none, []⟩ where
  clock := by
    unfold clamp
    split
    next deadline known =>
      obtain ⟨budget, _, rfl⟩ := Option.map_eq_some_iff.mp known
      exact (Nat.min_eq_left (Nat.le_add_right _ _)).symm
    next => rfl
  retried _ absurd := (Nat.not_lt_zero _ absurd).elim
  logged := .nil
  classed _ member := nomatch member
  unreturned := by simp

theorem clamp_early (early : call.Early (call.clamp now)) : call.clamp now = now := by
  unfold clamp at early ⊢
  split at early
  next deadline known =>
    have lt := early deadline known
    exact Nat.min_eq_left (by omega)
  next => rfl

/-- The clock before the deadline is where the sum is. -/
theorem Sound.now_eq (sound : call.Sound earlier progress) (early : call.Early progress.now) :
    progress.now = call.begins earlier := by
  rw [sound.clock] at early ⊢
  exact clamp_early early

/-- A failure that is retried. -/
theorem Fell.retried {last last' : Option Failure} {stop : Nat} {ending : Ending Failure}
    {class' : RetryClass} (fell : call.Fell attempt now last stop ending class' last')
    (retryable : class' = .retryable)
    (scheduled : (call.policy.delay call.jittered attempt).isSome) : call.Retried attempt := by
  cases fell with
  | returned gives timely => exact ⟨.inr ⟨_, _, gives, timely, retryable⟩, scheduled⟩
  | timedOut overruns => exact ⟨.inl overruns, scheduled⟩

theorem Fell.last_eq {last last' : Option Failure} {stop : Nat} {ending : Ending Failure}
    {class' : RetryClass} (fell : call.Fell attempt now last stop ending class' last') :
    last' = (Entry.attempted attempt now stop ending).failure.or last := by
  cases fell <;> simp [Entry.failure]

theorem Fell.within {last last' : Option Failure} {stop : Nat} {ending : Ending Failure}
    {class' : RetryClass} (fell : call.Fell attempt now last stop ending class' last')
    (inTime : call.InTime now attempt) :
    ∀ deadline, call.deadline = some deadline → stop ≤ deadline := by
  intro deadline known
  rw [fell.stop_eq]
  exact (inTime deadline known).1

theorem Fell.logged {stop : Nat} {ending : Ending Failure} {class' : RetryClass}
    {last : Option Failure} (sound : call.Sound earlier progress)
    (inTime : call.InTime progress.now (earlier + 1))
    (fell : call.Fell (earlier + 1) progress.now progress.last stop ending class' last) :
    call.Logged (progress.log ++ [.attempted (earlier + 1) progress.now stop ending]) (earlier + 1)
      earlier last := by
  rw [fell.last_eq]
  exact sound.logged.attempted (fell.within inTime)

/-- What a failure leaves behind says whether an attempt returned. -/
theorem Fell.unreturned {stop : Nat} {ending : Ending Failure} {class' : RetryClass}
    {last : Option Failure} (sound : call.Sound earlier progress)
    (fell : call.Fell (earlier + 1) progress.now progress.last stop ending class' last) :
    last = none ↔ ∀ round < earlier + 1, call.Overruns (round + 1) := by
  cases fell with
  | returned gives timely =>
      refine ⟨nofun, fun all => ?_⟩
      exact (not_overruns gives timely (all earlier (Nat.lt_succ_self _))).elim
  | timedOut overruns =>
      rw [sound.unreturned]
      refine ⟨fun all round lt => ?_, fun all round lt => all round (by omega)⟩
      obtain lt | rfl := Nat.lt_succ_iff_lt_or_eq.mp lt
      · exact all round lt
      · exact overruns

/-- A turn that goes on keeps what holds between two attempts. -/
theorem turn_sound (sound : call.Sound earlier progress) {next : Progress Failure}
    (goes : call.turn earlier progress = .again next) :
    call.Sound (earlier + 1) next ∧ earlier + 1 ≠ call.policy.maxAttempts := by
  have turned := @turn_turned _ _ call earlier progress
  rw [goes] at turned
  cases turned with
  | fell early inTime fell fails =>
      cases fails with
      | again retryable more scheduled announced =>
          have now := sound.now_eq early
          refine ⟨?_, more⟩
          constructor
          case clock =>
            change call.clamp _ = call.clamp _
            rw [fell.stop_eq, now, begins, scheduled]
            rfl
          case retried =>
            intro round lt
            obtain lt | rfl := Nat.lt_succ_iff_lt_or_eq.mp lt
            · exact sound.retried round lt
            · rw [← now]
              exact ⟨fell.retried retryable (by rw [scheduled]; rfl), early, inTime⟩
          case logged => exact (fell.logged sound inTime).announce announced
          case classed =>
            intro failure member
            simp only [List.filterMap_append, List.mem_append] at member
            obtain (member | member) | member := member
            · exact sound.classed failure member
            · cases fell with
              | returned gives timely =>
                  obtain rfl := List.mem_singleton.mp member
                  exact retryable
              | timedOut overruns => cases member
            · split at member <;> cases member
          case unreturned => exact fell.unreturned sound

/-- A call stops at the turn after some attempts that were retried. -/
theorem retry_stops (call : Call Failure Value) : ∃ earlier progress,
    earlier < call.policy.maxAttempts ∧ call.Sound earlier progress ∧
      call.turn earlier progress = .stop call.retry := by
  have positive : 0 < call.policy.maxAttempts := call.policy.attempts_range.1
  refine loop_of_invariant (fun earlier progress => earlier < call.policy.maxAttempts ∧
    call.Sound earlier progress) (fun ran => ∃ earlier progress, earlier < call.policy.maxAttempts ∧
      call.Sound earlier progress ∧ call.turn earlier progress = .stop ran) ⟨positive, sound_start⟩ ?_ ?_
  · rintro earlier progress _ _ ⟨lt, sound⟩
    split
    next next goes =>
      obtain ⟨sound', more⟩ := turn_sound sound goes
      exact ⟨by omega, sound'⟩
    next ran stops => exact ⟨earlier, progress, lt, sound, stops⟩
  · rintro progress ⟨absurd, _⟩
    omega

end Call

end Renvor.Retry
