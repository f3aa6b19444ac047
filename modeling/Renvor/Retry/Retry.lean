import Mathlib.Algebra.Group.Nat.Defs
import Renvor.Foundation.Loop
import Mathlib.Data.List.Basic

/-! # Bounded retry

An operation is attempted again while it fails retryably, each attempt under a
bound and all of them under a deadline. The loop answers with a value or with
why it gave up, and leaves a record of what it did and when. Times are nanoseconds of
the runtime's clock.
-/

namespace Renvor.Retry

/-- Whole milliseconds, in nanoseconds. -/
def millis (count : Nat) : Nat := count * 1000000

/-- The most attempts that a policy may ask for. -/
def maxAttemptsCap : Nat := 100

/-- One hour. -/
def maxDelayCap : Nat := millis 3600000

/-- The longest that one attempt may be given. -/
def attemptTimeoutCap : Nat := millis 3600000

/-- The shortest first delay. -/
def minInitialDelay : Nat := millis 1

/-- The bound that a policy breaks. -/
inductive PolicyError
  | attemptsOutOfRange | initialDelayTooShort | maxDelayOutOfRange | attemptTimeoutOutOfRange
  | deadlineZero

/-- A policy that is bounded in every field. -/
structure RetryPolicy where
  maxAttempts : Nat
  initialDelay : Nat
  maxDelay : Nat
  attemptTimeout : Nat
  deadline : Option Nat
  attempts_range : 1 ≤ maxAttempts ∧ maxAttempts ≤ maxAttemptsCap
  initial_range : minInitialDelay ≤ initialDelay
  delay_range : initialDelay ≤ maxDelay ∧ maxDelay ≤ maxDelayCap
  timeout_range : minInitialDelay ≤ attemptTimeout ∧ attemptTimeout ≤ attemptTimeoutCap
  deadline_pos : ∀ budget, deadline = some budget → 0 < budget

namespace RetryPolicy

/-- Make a policy, or tell the first bound that it breaks. -/
def new (maxAttempts : Nat) (initialDelay maxDelay attemptTimeout : Nat) :
    Except PolicyError RetryPolicy :=
  if attempts : maxAttempts = 0 ∨ maxAttemptsCap < maxAttempts then .error .attemptsOutOfRange
  else if initial : initialDelay < minInitialDelay then .error .initialDelayTooShort
  else if delays : maxDelayCap < maxDelay ∨ maxDelay < initialDelay then .error .maxDelayOutOfRange
  else if timeouts : attemptTimeout < minInitialDelay ∨ attemptTimeoutCap < attemptTimeout then
    .error .attemptTimeoutOutOfRange
  else .ok {
    maxAttempts
    initialDelay
    maxDelay
    attemptTimeout
    deadline := none
    attempts_range := by omega
    initial_range := by omega
    delay_range := by omega
    timeout_range := by omega
    deadline_pos := nofun }

/-- Give a policy a deadline for all attempts together. -/
def withDeadline (policy : RetryPolicy) (deadline : Nat) : Except PolicyError RetryPolicy :=
  if zero : deadline = 0 then .error .deadlineZero
  else .ok { policy with
    deadline := some deadline
    deadline_pos := by
      rintro budget ⟨⟩
      exact Nat.pos_of_ne_zero zero }

/-- The delay after a failed attempt: the jittered one, held under the ceiling. -/
def delay (policy : RetryPolicy) (jittered : Nat → Option Nat) (failedAttempt : Nat) :
    Option Nat :=
  (jittered failedAttempt).map fun delay => min delay policy.maxDelay

/-- No delay is longer than the longest of the policy. -/
theorem delay_le {policy : RetryPolicy} {jittered : Nat → Option Nat} {attempt delay : Nat}
    (scheduled : policy.delay jittered attempt = some delay) : delay ≤ policy.maxDelay := by
  obtain ⟨jitter, _, rfl⟩ := Option.map_eq_some_iff.mp scheduled
  exact Nat.min_le_right _ _

end RetryPolicy

/-- Whether a failure is worth another attempt. -/
inductive RetryClass
  | retryable | terminal
  deriving DecidableEq

/-- The name of a class, as it stands in events. -/
def RetryClass.asStr : RetryClass → String
  | retryable => "retryable"
  | terminal => "terminal"

/-- Why there was no further attempt. -/
inductive StopReason
  | attemptsExhausted | terminal | deadlineExceeded | attemptTimedOut | entropyUnavailable
  deriving DecidableEq

/-- The name of a reason, as it stands in events. -/
def StopReason.asStr : StopReason → String
  | attemptsExhausted => "attempts_exhausted"
  | terminal => "terminal"
  | deadlineExceeded => "deadline_exceeded"
  | attemptTimedOut => "attempt_timed_out"
  | entropyUnavailable => "entropy_unavailable"

variable {Failure Value : Type}

/-- What a call that gave up answers: the reason, the attempts made, and the last failure. -/
structure RetryError (Failure : Type) where
  attempts : Nat
  reason : StopReason
  last : Option Failure

/-- What the operation does when it is attempted. -/
inductive Attempt (Failure Value : Type)
  | gives (after : Nat) (outcome : Except Failure Value)
  | hangs

/-- An attempt under a bound: the time it takes, and its outcome where it is not cut. -/
def Attempt.timeout (bound : Nat) : Attempt Failure Value → Nat × Option (Except Failure Value)
  | gives after outcome => if after ≤ bound then (after, some outcome) else (bound, none)
  | hangs => (bound, none)

/-- How an attempt ended. -/
inductive Ending (Failure : Type)
  | succeeded
  | failed (failure : Failure)
  | timedOut
  -- cut by the deadline
  | cutShort
  deriving DecidableEq

/-- An event on the retry target. -/
structure RetryEvent where
  operation : String
  attempt : Nat
  maxAttempts : Nat
  delayMs : Option Nat
  reason : String
  message : String

/-- What is announced before a delay. -/
def retryingMessage : String := "operation failed; retrying after a delay"

/-- What the loop does, in order. -/
inductive Entry (Failure : Type)
  | attempted (attempt : Nat) (start stop : Nat) (ending : Ending Failure)
  | warned (event : RetryEvent)
  | counted (labels : List (String × String)) (count : Nat)
  | slept (start stop : Nat)

/-- Between two attempts. -/
structure Progress (Failure : Type) where
  now : Nat
  last : Option Failure
  log : List (Entry Failure)

/-- What a whole call did, and its answer. -/
structure Ran (Failure Value : Type) where
  log : List (Entry Failure)
  result : Except (RetryError Failure) Value

/-- One call of the helper: what it is given, and what the operation, the entropy
source and the clock do. -/
structure Call (Failure Value : Type) where
  policy : RetryPolicy
  jittered : Nat → Option Nat
  operation : String
  retries : Bool
  classify : Failure → RetryClass
  run : Nat → Attempt Failure Value
  started : Nat

namespace Call

open Foundation

variable (call : Call Failure Value)

/-- When the deadline of a call is, if it has one. -/
def deadline : Option Nat := call.policy.deadline.map (call.started + ·)

/-- The bound of the next attempt and whether the deadline sets it; none where
nothing is left of it. -/
def bound (now : Nat) : Option (Nat × Bool) :=
  match call.deadline with
  | some deadline =>
      let remaining := deadline - now
      if remaining = 0 then none
      else if remaining ≤ call.policy.attemptTimeout then some (remaining, true)
      else some (call.policy.attemptTimeout, false)
  | none => some (call.policy.attemptTimeout, false)

/-- The event of a failed attempt. -/
def warning (attempt : Nat) (reason message : String) (delayMs : Option Nat) : RetryEvent where
  operation := call.operation
  attempt
  maxAttempts := call.policy.maxAttempts
  delayMs
  reason
  message

/-- The turn in which a call gives up: it announces the reason and ends. -/
def gaveUp (log : List (Entry Failure)) (attempts : Nat) (reason : StopReason)
    (last : Option Failure) : Turn (Progress Failure) (Ran Failure Value) :=
  .stop ⟨log, .error ⟨attempts, reason, last⟩⟩

/-- A delay, or what the deadline leaves of it. -/
def clampedDelay (now delay : Nat) : Nat :=
  match call.deadline with
  | some deadline => min delay (deadline - now)
  | none => delay

/-- After an attempt that failed, or timed out on its own. -/
def failed (attempt : Nat) (class' : RetryClass) (label : String) (progress : Progress Failure) :
    Turn (Progress Failure) (Ran Failure Value) :=
  if class' = .terminal then
    gaveUp (progress.log ++
      [.warned (call.warning attempt label "operation failed and will not be retried" none)])
      attempt .terminal progress.last
  else if attempt = call.policy.maxAttempts then
    let reason := if progress.last.isNone then StopReason.attemptTimedOut else .attemptsExhausted
    gaveUp (progress.log ++
      [.warned (call.warning attempt reason.asStr "operation failed on its last attempt" none)])
      attempt reason progress.last
  else match call.policy.delay call.jittered attempt with
    | none => gaveUp progress.log attempt .entropyUnavailable progress.last
    | some delay =>
        let delay := call.clampedDelay progress.now delay
        .again {
          now := progress.now + delay
          last := progress.last
          log := progress.log ++
            .warned (call.warning attempt label retryingMessage
              (some (min (delay / 1000000) (2 ^ 64 - 1)))) ::
            ((if call.retries then
              [.counted [("operation", call.operation), ("reason", label)] 1] else []) ++
            [.slept progress.now (progress.now + delay)]) }

/-- The attempt after the earlier ones. -/
def turn (earlier : Nat) (progress : Progress Failure) :
    Turn (Progress Failure) (Ran Failure Value) :=
  let attempt := earlier + 1
  match call.bound progress.now with
  | none => gaveUp progress.log earlier .deadlineExceeded progress.last
  | some (bound, deadlineGoverns) =>
      let (elapsed, outcome) := (call.run attempt).timeout bound
      let now := progress.now + elapsed
      match outcome with
      | some (.ok value) =>
          .stop ⟨progress.log ++ [.attempted attempt progress.now now .succeeded], .ok value⟩
      | some (.error failure) =>
          call.failed attempt (call.classify failure) (call.classify failure).asStr
            ⟨now, some failure,
              progress.log ++ [.attempted attempt progress.now now (.failed failure)]⟩
      | none =>
          if deadlineGoverns then
            gaveUp (progress.log ++ [.attempted attempt progress.now now .cutShort,
              .warned (call.warning attempt StopReason.deadlineExceeded.asStr
                "operation was cut by the overall deadline" none)])
              attempt .deadlineExceeded progress.last
          else
            call.failed attempt .retryable StopReason.attemptTimedOut.asStr
              ⟨now, progress.last, progress.log ++ [.attempted attempt progress.now now .timedOut]⟩

/-- Every attempt the policy permits. -/
def retry : Ran Failure Value :=
  loop call.turn (fun progress => ⟨progress.log, .error
    ⟨call.policy.maxAttempts, .attemptsExhausted, progress.last⟩⟩) call.policy.maxAttempts 0
    ⟨call.started, none, []⟩

end Call

end Renvor.Retry
