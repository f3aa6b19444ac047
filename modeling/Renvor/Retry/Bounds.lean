import Mathlib.Data.Nat.Basic
import Mathlib.Order.Basic
import Renvor.Retry.Timeline

/-! # What bounds a call, and what it says of itself

The attempts, the deadline, a terminal failure and the last failure are as the
policy has them in every call. A retry is counted and announced before its sleep,
and a sleep that reaches the deadline is followed by no attempt
(`Renvor.Retry.Call.bounded_iff`). Why the attempts ran out is told from every
attempt, not from the last (`Renvor.Retry.Call.named_iff`).
-/

namespace Renvor.Retry

variable {Failure Value : Type}

/-- How the attempt of an entry ended, if it is one of an attempt. -/
def Entry.ending : Entry Failure → Option (Ending Failure)
  | attempted _ _ _ ending => some ending
  | _ => none

/-- Why a call gave up, if it did. -/
def Ran.reason (ran : Ran Failure Value) : Option StopReason :=
  match ran.result with
  | .ok _ => none
  | .error error => some error.reason

namespace Call

/-- What a call is bounded by, and that it counts the retries that happen. -/
structure Bounded (call : Call Failure Value) (ran : Ran Failure Value) : Prop where
  attempts : ∃ count ≤ call.policy.maxAttempts,
    ran.log.filterMap Entry.number = List.range' 1 count
  within : ∀ deadline, call.deadline = some deadline →
    ∀ entry ∈ ran.log, ∀ stop, entry.stop = some stop → stop ≤ deadline
  stops : ∀ attempt start stop failure, .attempted attempt start stop (.failed failure) ∈ ran.log →
    call.classify failure = .terminal → ∃ front event,
      ran.log = front ++ [.attempted attempt start stop (.failed failure), .warned event] ∧
        event.message ≠ retryingMessage ∧ ran.result = .error ⟨attempt, .terminal, some failure⟩
  last : ∀ error, ran.result = .error error →
    error.last = (ran.log.filterMap Entry.failure).getLast?
  retrying : ran.log.countP Entry.retrying = (ran.log.filterMap Entry.number).length - 1
  counting : call.retries = true →
    ran.log.countP Entry.counting = (ran.log.filterMap Entry.number).length - 1

/-- A retried failure before the last attempt is in time, and the delay after it
reaches the deadline. -/
def Wasted (call : Call Failure Value) : Prop :=
  ∃ earlier deadline, earlier + 1 < call.policy.maxAttempts ∧ call.deadline = some deadline ∧
    (∀ round ≤ earlier, call.Retried (round + 1)) ∧ call.begins earlier < deadline ∧
      call.InTime (call.begins earlier) (earlier + 1) ∧ deadline ≤ call.begins (earlier + 1)

/-- Why a call ran out of attempts is told from the last one. -/
structure Named (call : Call Failure Value) (ran : Ran Failure Value) : Prop where
  timedOut : ran.reason = some .attemptTimedOut ↔
    (ran.log.filterMap Entry.number).length = call.policy.maxAttempts ∧
      (ran.log.filterMap Entry.ending).getLast? = some .timedOut
  exhausted : ran.reason = some .attemptsExhausted ↔
    (ran.log.filterMap Entry.number).length = call.policy.maxAttempts ∧ ∃ failure,
      (ran.log.filterMap Entry.ending).getLast? = some (.failed failure) ∧
        call.classify failure = .retryable

/-- The attempts run out with one that times out, after one that returned. -/
def Misnamed (call : Call Failure Value) : Prop :=
  ∃ earlier, earlier + 1 = call.policy.maxAttempts ∧
    (∀ round < earlier, call.Retried (round + 1)) ∧ call.Overruns (earlier + 1) ∧
      call.InTime (call.begins earlier) (earlier + 1) ∧
        ∃ round < earlier, ¬ call.Overruns (round + 1)

variable {call : Call Failure Value} {earlier : Nat} {progress : Progress Failure}

/-- An attempt begins after the one before it has taken its time. -/
theorem begins_le : call.begins earlier + call.spent (earlier + 1) ≤ call.begins (earlier + 1) :=
  Nat.le_add_right _ _

/-- Later attempts begin later. -/
theorem begins_mono {later : Nat} (le : earlier ≤ later) :
    call.begins earlier ≤ call.begins later := by
  induction le with
  | refl => exact le_rfl
  | step _ ih => exact ih.trans (le_trans (Nat.le_add_right _ _) begins_le)

/-- An attempt that ends before a time the deadline leaves is not cut. -/
theorem inTime_of_early (early : call.Early (call.begins (earlier + 1))) :
    call.InTime (call.begins earlier) (earlier + 1) := by
  intro deadline known
  have lt := early deadline known
  have le := @begins_le _ _ call earlier
  exact ⟨by omega, fun _ => by omega⟩

/-- A turn stops late, or at an attempt that is not retried. -/
theorem stops_unretried {ran : Ran Failure Value} (sound : call.Sound earlier progress)
    (stops : call.Turned earlier progress (.stop ran)) (early : call.Early progress.now)
    (inTime : call.InTime (call.begins earlier) (earlier + 1))
    (retried : call.Retried (earlier + 1)) : earlier + 1 = call.policy.maxAttempts := by
  cases stops with
  | late known past => exact absurd (early _ known) (Nat.not_lt.mpr past)
  | succeeded _ gives timely within =>
      obtain ⟨overruns | ⟨after, failure, fails, _⟩, _⟩ := retried
      · exact (not_overruns gives timely overruns).elim
      · cases gives.symm.trans fails
  | cutShort known _ cut =>
      rw [sound.now_eq early] at cut
      exact (cut inTime).elim
  | fell _ _ fell fails =>
      cases fails with
      | last _ last => exact last
      | unjittered _ _ unscheduled =>
          have scheduled := retried.2
          rw [unscheduled] at scheduled
          cases scheduled
      | terminal terminal =>
          cases fell with
          | timedOut => cases terminal
          | returned gives timely =>
              obtain ⟨overruns | ⟨after, failure, fails, _, retryable⟩, _⟩ := retried
              · exact (not_overruns gives timely overruns).elim
              · cases gives.symm.trans fails
                cases terminal.symm.trans retryable

/-- A call that stops at an attempt wasted no retry. -/
theorem not_wasted {ran : Ran Failure Value} (sound : call.Sound earlier progress)
    (stops : call.Turned earlier progress (.stop ran)) (early : call.Early progress.now) :
    ¬ call.Wasted := by
  rintro ⟨round, deadline, more, known, retried, begun, inTime, reached⟩
  have now := sound.now_eq early
  have before : call.begins earlier < deadline := by
    rw [← now]
    exact early deadline known
  obtain passed | ahead := Nat.lt_or_ge round earlier
  · have := @begins_mono _ _ call (round + 1) earlier passed
    omega
  · have timely : call.InTime (call.begins earlier) (earlier + 1) := by
      obtain rfl | later := Nat.eq_or_lt_of_le ahead
      · exact inTime
      · refine inTime_of_early fun other same => ?_
        cases known.symm.trans same
        exact lt_of_le_of_lt (begins_mono later) begun
    have last := stops_unretried sound stops early timely (retried earlier ahead)
    omega

/-- A call that stops before an attempt wasted the retry it announced. -/
theorem wasted_of_late {deadline : Nat} (sound : call.Sound earlier progress)
    (lt : earlier < call.policy.maxAttempts) (known : call.deadline = some deadline)
    (past : deadline ≤ progress.now) : earlier ≠ 0 ∧ call.Wasted := by
  have reached : deadline ≤ call.begins earlier := by
    rw [sound.clock, clamp, known] at past
    exact past.trans (Nat.min_le_left _ _)
  cases earlier with
  | zero =>
      obtain ⟨budget, set, rfl⟩ := Option.map_eq_some_iff.mp known
      have positive := call.policy.deadline_pos budget set
      change call.started + budget ≤ call.started at reached
      omega
  | succ earlier =>
      have here := sound.retried earlier (Nat.lt_succ_self _)
      refine ⟨nofun, earlier, deadline, lt, known, fun round le => ?_, here.2.1 _ known, here.2.2,
        reached⟩
      exact (sound.retried round (by omega)).1

/-- No failure before the last was terminal. -/
theorem Sound.not_terminal (sound : call.Sound earlier progress) {attempt start stop : Nat}
    {failure : Failure} (member : Entry.attempted attempt start stop (.failed failure) ∈ progress.log)
    (terminal : call.classify failure = .terminal) : False := by
  have retryable := sound.classed failure (List.mem_filterMap.mpr ⟨_, member, rfl⟩)
  cases terminal.symm.trans retryable

/-- What bounds a call holds of it but for its count of retries. -/
theorem bounded_of_logged {ran : Ran Failure Value} {attempts retries : Nat}
    {last : Option Failure} (logged : call.Logged ran.log attempts retries last)
    (le : attempts ≤ call.policy.maxAttempts)
    (ends : ∀ error, ran.result = .error error → error.last = last)
    (stops : ∀ attempt start stop failure, .attempted attempt start stop (.failed failure) ∈ ran.log →
      call.classify failure = .terminal → ∃ front event,
        ran.log = front ++ [.attempted attempt start stop (.failed failure), .warned event] ∧
          event.message ≠ retryingMessage ∧
            ran.result = .error ⟨attempt, .terminal, some failure⟩) :
    call.Bounded ran ↔ retries = attempts - 1 := by
  have length : (ran.log.filterMap Entry.number).length = attempts := by
    rw [logged.numbered, List.length_range']
  constructor
  · intro bounded
    have same := bounded.retrying
    rwa [logged.retrying, length] at same
  · intro same
    constructor
    case attempts => exact ⟨attempts, le, logged.numbered⟩
    case within => exact logged.within
    case stops => exact stops
    case last => exact fun error fails => (ends error fails).trans logged.last
    case retrying => rw [logged.retrying, length, same]
    case counting => exact fun counted => by rw [logged.counting counted, length, same]

/-- A terminal failure in the log of a call that stops is its last attempt's. -/
theorem Sound.stops_last (sound : call.Sound earlier progress) {ran : Ran Failure Value}
    {stop : Nat} {ending : Ending Failure} {tail : List (Entry Failure)}
    (log : ran.log = progress.log ++ .attempted (earlier + 1) progress.now stop ending :: tail)
    (quiet : ∀ entry ∈ tail, ∃ event, entry = .warned event)
    (own : ∀ failure, ending = .failed failure → call.classify failure = .terminal →
      ∃ event : RetryEvent, tail = [.warned event] ∧ event.message ≠ retryingMessage ∧
        ran.result = .error ⟨earlier + 1, .terminal, some failure⟩)
    (attempt start stopped : Nat) (failure : Failure)
    (member : .attempted attempt start stopped (.failed failure) ∈ ran.log)
    (terminal : call.classify failure = .terminal) :
    ∃ front event,
      ran.log = front ++ [.attempted attempt start stopped (.failed failure), .warned event] ∧
        event.message ≠ retryingMessage ∧
          ran.result = .error ⟨attempt, .terminal, some failure⟩ := by
  rw [log] at member
  obtain before | here := List.mem_append.mp member
  · exact (sound.not_terminal before terminal).elim
  obtain same | after := List.mem_cons.mp here
  · cases same
    obtain ⟨event, rfl, unannounced, result⟩ := own failure rfl terminal
    exact ⟨progress.log, event, log, unannounced, result⟩
  · obtain ⟨event, other⟩ := quiet _ after
    cases other

/-- An attempt that failed is classified as its failure is, which is then the last one. -/
theorem Fell.of_failed {attempt now stop : Nat} {last last' : Option Failure} {failure : Failure}
    {class' : RetryClass} (fell : call.Fell attempt now last stop (.failed failure) class' last') :
    class' = call.classify failure ∧ last' = some failure := by
  cases fell
  exact ⟨rfl, rfl⟩

/-- Two attempts, a tenth of a second apart, with half of that for all. -/
def hurried : Call Unit Unit where
  policy := {
    maxAttempts := 2
    initialDelay := millis 100
    maxDelay := millis 100
    attemptTimeout := millis 1000
    deadline := some (millis 50)
    attempts_range := by decide
    initial_range := by decide
    delay_range := by decide
    timeout_range := by decide
    deadline_pos := by
      rintro budget ⟨⟩
      decide }
  jittered _ := some (millis 100)
  operation := "slow"
  retries := true
  classify _ := .retryable
  run _ := .gives 0 (.error ())
  started := 0

/-- Where a call is misnamed, it stops at its last attempt. -/
theorem Misnamed.last (misnamed : call.Misnamed) {ran : Ran Failure Value}
    (lt : earlier < call.policy.maxAttempts) (sound : call.Sound earlier progress)
    (stops : call.Turned earlier progress (.stop ran)) :
    call.Early progress.now ∧ earlier + 1 = call.policy.maxAttempts ∧
      call.Overruns (earlier + 1) ∧ call.InTime progress.now (earlier + 1) ∧
        ∃ round < earlier, ¬ call.Overruns (round + 1) := by
  obtain ⟨final, last, retried, overruns, inTime, returned⟩ := misnamed
  have before : call.Early (call.begins final) := fun deadline known =>
    lt_of_le_of_lt (Nat.le_add_right _ _) ((inTime deadline known).2 overruns)
  have le : earlier ≤ final := by omega
  have early : call.Early progress.now := by
    intro deadline known
    rw [sound.clock, clamp, known]
    exact lt_of_le_of_lt ((Nat.min_le_left _ _).trans (begins_mono le)) (before deadline known)
  have now := sound.now_eq early
  obtain rfl | behind := Nat.eq_or_lt_of_le le
  · rw [now]
    exact ⟨before, last, overruns, inTime, returned⟩
  · have timely : call.InTime (call.begins earlier) (earlier + 1) :=
      inTime_of_early fun deadline known =>
        lt_of_le_of_lt (begins_mono behind) (before deadline known)
    have := stops_unretried sound stops early timely (retried earlier behind)
    omega

/-- A call that stops at an attempt is named by how that one ended. -/
theorem named_of_ending {ran : Ran Failure Value} {stop : Nat} {ending : Ending Failure}
    {tail : List (Entry Failure)} (sound : call.Sound earlier progress)
    (log : ran.log = progress.log ++ .attempted (earlier + 1) progress.now stop ending :: tail)
    (quiet : ∀ entry ∈ tail, ∃ event, entry = .warned event) :
    call.Named ran ↔
      (ran.reason = some .attemptTimedOut ↔
        earlier + 1 = call.policy.maxAttempts ∧ ending = .timedOut) ∧
      (ran.reason = some .attemptsExhausted ↔ earlier + 1 = call.policy.maxAttempts ∧
        ∃ failure, ending = .failed failure ∧ call.classify failure = .retryable) := by
  have length : (ran.log.filterMap Entry.number).length = earlier + 1 := by
    have none : tail.filterMap Entry.number = [] := List.filterMap_eq_nil_iff.mpr fun entry member => by
      obtain ⟨event, rfl⟩ := quiet entry member
      rfl
    rw [log, List.filterMap_append, List.length_append, sound.logged.numbered, List.length_range',
      List.filterMap_cons]
    simp only [Entry.number, none, List.length_singleton]
  have last : (ran.log.filterMap Entry.ending).getLast? = some ending := by
    have none : tail.filterMap Entry.ending = [] := List.filterMap_eq_nil_iff.mpr fun entry member => by
      obtain ⟨event, rfl⟩ := quiet entry member
      rfl
    rw [log, List.filterMap_append, List.filterMap_cons]
    simp only [Entry.ending, none]
    exact List.getLast?_concat
  constructor
  · rintro ⟨timedOut, exhausted⟩
    simp only [length, last, Option.some.injEq] at timedOut exhausted
    exact ⟨timedOut, exhausted⟩
  · rintro ⟨timedOut, exhausted⟩
    constructor
    · simpa only [length, last, Option.some.injEq] using timedOut
    · simpa only [length, last, Option.some.injEq] using exhausted

/-- A policy without a deadline has none that could be zero. -/
theorem no_deadline (budget : Nat) (set : none = some budget) : 0 < budget := by
  cases set

/-- An attempt that fails, and one that hangs. -/
def mixed : Call Unit Unit where
  policy := {
    maxAttempts := 2
    initialDelay := millis 100
    maxDelay := millis 100
    attemptTimeout := millis 1000
    deadline := none
    attempts_range := by decide
    initial_range := by decide
    delay_range := by decide
    timeout_range := by decide
    deadline_pos := no_deadline }
  jittered _ := some (millis 100)
  operation := "mixed"
  retries := true
  classify _ := .retryable
  run attempt := if attempt = 1 then .gives 0 (.error ()) else .hangs
  started := 0

end Call

end Renvor.Retry
