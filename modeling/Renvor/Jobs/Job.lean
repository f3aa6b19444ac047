import Renvor.Kernel.Entropy

/-! # Jobs, their bounds and the job-store port

The values a job store takes and returns. A name, a key, a payload and a new
job carry the bounds their constructors check. The trace context a job carries
is left out, and a counter of attempts has no end of its own.
-/

namespace Renvor

def maxIdentifierBytes : Nat := 64
def maxIdempotencyKeyBytes : Nat := 128
def defaultMaxPayloadBytes : Nat := 64 * 1024
def maxPayloadBytesCap : Nat := 1024 * 1024
def defaultMaxAttempts : Nat := 5
def maxAttemptsCap : Nat := 100
def defaultMaxQueueDepth : Nat := 100000

/-- How many expired leases one claim takes back. -/
def reclaimBatch : Nat := 100

/-- The last microsecond a `SystemTime` can be at: its seconds are an `i64`. -/
def systemTimeMax : Instant := 9223372036854775807 * 1000000 + 999999

/-- `now + lease`, or nothing where the sum overflows and the addition
panics. -/
def leaseEnd (now : Instant) (lease : Nat) : Option Instant :=
  if now + lease ≤ systemTimeMax then some (now + lease) else none

theorem leaseEnd_eq_some {now expiresAt : Instant} {lease : Nat} :
    leaseEnd now lease = some expiresAt ↔ now + lease ≤ systemTimeMax ∧ now + lease = expiresAt := by
  simp [leaseEnd]

theorem leaseEnd_eq_none {now : Instant} {lease : Nat} :
    leaseEnd now lease = none ↔ systemTimeMax < now + lease := by
  simp [leaseEnd]

/-- Why an input was refused. -/
inductive JobRefusal
  | queueNameInvalid | kindInvalid | idempotencyKeyInvalid | payloadTooLarge
  | attemptsOutOfRange | boundOutOfRange
  deriving DecidableEq

inductive JobError
  | unavailable | timedOut
  | refused (refusal : JobRefusal)
  | queueFull | leaseNotHeld | notFound | entropyUnavailable
  deriving DecidableEq

/-- The bounds a store validates against. -/
structure JobBounds where
  maxPayloadBytes : Nat
  maxQueueDepth : Nat
  payload : 0 < maxPayloadBytes ∧ maxPayloadBytes ≤ maxPayloadBytesCap
  depth : 0 < maxQueueDepth

def JobBounds.default : JobBounds where
  maxPayloadBytes := defaultMaxPayloadBytes
  maxQueueDepth := defaultMaxQueueDepth
  payload := by decide
  depth := by decide

def JobBounds.withMaxPayloadBytes (bounds : JobBounds) (bytes : Nat) : Except JobError JobBounds :=
  if fits : 0 < bytes ∧ bytes ≤ maxPayloadBytesCap then
    .ok { bounds with maxPayloadBytes := bytes, payload := fits }
  else .error (.refused .boundOutOfRange)

def JobBounds.withMaxQueueDepth (bounds : JobBounds) (depth : Nat) : Except JobError JobBounds :=
  if positive : 0 < depth then .ok { bounds with maxQueueDepth := depth, depth := positive }
  else .error (.refused .boundOutOfRange)

/-- Lowercase letters, digits, `_`, `.` and `-`, at least one and at most
`maxIdentifierBytes`. Every such character is one byte. -/
def validIdentifier (text : String) : Bool :=
  text.toList ≠ [] && text.utf8ByteSize ≤ maxIdentifierBytes &&
    text.toList.all fun char =>
      ('a' ≤ char && char ≤ 'z') || ('0' ≤ char && char ≤ '9') ||
        char == '_' || char == '.' || char == '-'

structure QueueName where
  text : String
  valid : validIdentifier text = true
  deriving DecidableEq

def QueueName.new (name : String) : Except JobError QueueName :=
  if valid : validIdentifier name = true then .ok ⟨name, valid⟩
  else .error (.refused .queueNameInvalid)

structure JobKind where
  text : String
  valid : validIdentifier text = true
  deriving DecidableEq

def JobKind.new (kind : String) : Except JobError JobKind :=
  if valid : validIdentifier kind = true then .ok ⟨kind, valid⟩
  else .error (.refused .kindInvalid)

/-- One to `maxIdempotencyKeyBytes` bytes, none of them a control byte. The
bytes of a character past the seven-bit range are none. -/
def validIdempotencyKey (text : String) : Bool :=
  text.toList ≠ [] && text.utf8ByteSize ≤ maxIdempotencyKeyBytes &&
    text.toList.all fun char => 0x20 ≤ char.toNat && char.toNat != 0x7f

structure IdempotencyKey where
  text : String
  valid : validIdempotencyKey text = true
  deriving DecidableEq

def IdempotencyKey.new (key : String) : Except JobError IdempotencyKey :=
  if valid : validIdempotencyKey key = true then .ok ⟨key, valid⟩
  else .error (.refused .idempotencyKeyInvalid)

/-- A payload within the bounds it was made under, whichever these were. -/
structure JobPayload where
  bytes : List Byte
  capped : bytes.length ≤ maxPayloadBytesCap
  deriving DecidableEq

/-- A payload within these bounds. -/
def JobPayload.within (bytes : List Byte) (bounds : JobBounds) : Except JobError JobPayload :=
  if fits : bytes.length ≤ bounds.maxPayloadBytes then
    .ok ⟨bytes, fits.trans bounds.payload.2⟩
  else .error (.refused .payloadTooLarge)

/-- A job's identifier; identifiers are ordered byte by byte. -/
abbrev JobId := Sixteen

/-- The token a claim leases a job under. -/
abbrev LeaseToken := Sixteen

/-- Where a job is in its life. -/
inductive JobState
  | ready | leased | completed | dead
  deriving DecidableEq

/-- How an attempt failed. -/
inductive FailureKind
  | handlerFailed | timedOut | panicked | leaseExpired | abandoned
  deriving DecidableEq

/-- Whether a failure dead-letters whatever attempts remain. -/
def FailureKind.isTerminal : FailureKind → Bool
  | .abandoned => true
  | _ => false

/-- A job to enqueue. -/
structure NewJob where
  queue : QueueName
  kind : JobKind
  payload : JobPayload
  idempotencyKey : Option IdempotencyKey
  maxAttempts : Nat
  runAt : Option Instant
  attempts : 0 < maxAttempts ∧ maxAttempts ≤ maxAttemptsCap
  deriving DecidableEq

def NewJob.new (queue : QueueName) (kind : JobKind) (payload : JobPayload) : NewJob where
  queue := queue
  kind := kind
  payload := payload
  idempotencyKey := none
  maxAttempts := defaultMaxAttempts
  runAt := none
  attempts := by decide

def NewJob.withMaxAttempts (job : NewJob) (maxAttempts : Nat) : Except JobError NewJob :=
  if fits : 0 < maxAttempts ∧ maxAttempts ≤ maxAttemptsCap then
    .ok { job with maxAttempts := maxAttempts, attempts := fits }
  else .error (.refused .attemptsOutOfRange)

/-- One attempt at an unkeyed job with no payload. -/
def NewJob.receipt : NewJob where
  queue := ⟨"emails", by decide⟩
  kind := ⟨"receipt", by decide⟩
  payload := ⟨[], Nat.zero_le _⟩
  idempotencyKey := none
  maxAttempts := 1
  runAt := none
  attempts := by decide

/-- A stored job. -/
structure Job where
  id : JobId
  queue : QueueName
  kind : JobKind
  payload : JobPayload
  state : JobState
  attempts : Nat
  maxAttempts : Nat
  runAt : Instant
  idempotencyKey : Option IdempotencyKey
  lastFailure : Option FailureKind
  createdAt : Instant
  updatedAt : Instant
  finishedAt : Option Instant
  deriving DecidableEq

/-- A job handed out under a lease. -/
structure ClaimedJob where
  job : Job
  lease : LeaseToken
  leaseExpiresAt : Instant
  deriving DecidableEq

/-- How a claim ends that meets no error: with what it hands out, or in a panic
because its lease ends past the last time there is. -/
inductive ClaimEnd
  | answered (claimed : Option ClaimedJob)
  | panicked

inductive Enqueued
  | created (id : JobId)
  | duplicate (id : JobId)
  deriving DecidableEq

inductive Completion
  | completed | alreadyCompleted
  deriving DecidableEq

inductive FailureOutcome
  | rescheduled (runAt : Instant) (attempts : Nat)
  | deadLettered (attempts : Nat)
  deriving DecidableEq

/-- One stored job with its lease. -/
structure Row where
  job : Job
  lease : Option LeaseToken
  leaseExpiresAt : Option Instant

/-- A call of the job-store port. -/
inductive JobOp
  | enqueue (job : NewJob) (now : Instant)
  | claim (queue : QueueName) (now : Instant) (lease : Nat)
  | complete (lease : LeaseToken) (now : Instant)
  | fail (lease : LeaseToken) (failure : FailureKind) (nextRunAt now : Instant)
  | release (lease : LeaseToken) (now : Instant)
  | revive (id : JobId) (now : Instant)
  | read (id : JobId)
  | depth (queue : QueueName)
  deriving DecidableEq

/-- A claim's lease ends at a time there is. -/
def JobOp.Lasts : JobOp → Prop
  | .claim _ now lease => now + lease ≤ systemTimeMax
  | _ => True

/-- The queue a call names. -/
def JobOp.queue? : JobOp → Option QueueName
  | .enqueue job _ => some job.queue
  | .claim queue _ _ | .depth queue => some queue
  | _ => none

/-- The answer of a call of the job-store port; a call that panics gives
none. -/
inductive JobAnswer
  | enqueued (result : Except JobError Enqueued)
  | claimed (result : Except JobError (Option ClaimedJob))
  | panicked
  | completed (result : Except JobError Completion)
  | failed (result : Except JobError FailureOutcome)
  | released (result : Except JobError Unit)
  | revived (result : Except JobError Bool)
  | found (result : Except JobError (Option Job))
  | counted (result : Except JobError Nat)
  deriving DecidableEq

/-- What the caller of a claim is told. -/
def JobAnswer.ofClaim : Except JobError ClaimEnd → JobAnswer
  | .ok (.answered handed) => .claimed (.ok handed)
  | .ok .panicked => .panicked
  | .error error => .claimed (.error error)

/-! ## What a transition does to one row -/

namespace Row

/-- The row of a job just enqueued. -/
def enqueued (id : JobId) (job : NewJob) (now : Instant) : Row where
  job := {
    id := id
    queue := job.queue
    kind := job.kind
    payload := job.payload
    state := .ready
    attempts := 0
    maxAttempts := job.maxAttempts
    runAt := job.runAt.getD now
    idempotencyKey := job.idempotencyKey
    lastFailure := none
    createdAt := now
    updatedAt := now
    finishedAt := none }
  lease := none
  leaseExpiresAt := none

/-- Whether a claim takes this lease back, given the queues it takes for its
own. -/
def expiredIn (inQueue : QueueName → Bool) (now : Instant) (row : Row) : Bool :=
  inQueue row.job.queue && row.job.state = .leased && row.leaseExpiresAt.any (· ≤ now)

/-- Whether a claim may hand this job out, given the queues it takes for its
own. -/
def runnableIn (inQueue : QueueName → Bool) (now : Instant) (row : Row) : Bool :=
  inQueue row.job.queue && row.job.state = .ready && row.job.runAt ≤ now

/-- Whether a depth counts this job, given the queues it takes for one. -/
def countedIn (inQueue : QueueName → Bool) (row : Row) : Bool :=
  inQueue row.job.queue && (row.job.state = .ready || row.job.state = .leased)

/-- Whether a queue's claim takes this lease back. -/
abbrev expired (queue : QueueName) : Instant → Row → Bool :=
  expiredIn fun other => decide (other = queue)

/-- Whether a queue's claim may hand this job out. -/
abbrev runnable (queue : QueueName) : Instant → Row → Bool :=
  runnableIn fun other => decide (other = queue)

/-- Whether the depth bound of a queue counts this job. -/
abbrev counted (queue : QueueName) : Row → Bool :=
  countedIn fun other => decide (other = queue)

/-- An expired lease taken back: ready again while attempts remain, otherwise
dead. -/
def reclaim (now : Instant) (row : Row) : Row where
  job := { row.job with
    lastFailure := some .leaseExpired
    updatedAt := now
    state := if row.job.attempts ≥ row.job.maxAttempts then .dead else .ready
    finishedAt := if row.job.attempts ≥ row.job.maxAttempts then some now
      else row.job.finishedAt }
  lease := none
  leaseExpiresAt := none

/-- Leased for a duration. -/
def claim (token : LeaseToken) (now : Instant) (lease : Nat) (row : Row) : Row where
  job := { row.job with state := .leased, attempts := row.job.attempts + 1, updatedAt := now }
  lease := some token
  leaseExpiresAt := some (now + lease)

/-- What a claim has written when the end of its lease overflows: everything
but that end. -/
def overrun (token : LeaseToken) (now : Instant) (row : Row) : Row where
  job := { row.job with state := .leased, attempts := row.job.attempts + 1, updatedAt := now }
  lease := some token
  leaseExpiresAt := row.leaseExpiresAt

/-- Completed; the token stays. -/
def complete (now : Instant) (row : Row) : Row :=
  { row with job := { row.job with state := .completed, updatedAt := now, finishedAt := some now } }

/-- Dead-lettered by a failure. -/
def bury (failure : FailureKind) (now : Instant) (row : Row) : Row where
  job := { row.job with
    lastFailure := some failure, updatedAt := now, state := .dead, finishedAt := some now }
  lease := none
  leaseExpiresAt := none

/-- Rescheduled after a failure. -/
def reschedule (failure : FailureKind) (nextRunAt now : Instant) (row : Row) : Row where
  job := { row.job with
    lastFailure := some failure, updatedAt := now, state := .ready, runAt := nextRunAt }
  lease := none
  leaseExpiresAt := none

/-- Whether a failure is the last. -/
def spent (failure : FailureKind) (row : Row) : Bool :=
  failure.isTerminal || row.job.attempts ≥ row.job.maxAttempts

/-- Given back without a failure. -/
def release (now : Instant) (row : Row) : Row where
  job := { row.job with state := .ready, runAt := now, updatedAt := now }
  lease := none
  leaseExpiresAt := none

/-- Put back from the dead with its attempts reset. -/
def revive (now : Instant) (row : Row) : Row where
  job := { row.job with
    state := .ready, attempts := 0, runAt := now, updatedAt := now, finishedAt := none
    lastFailure := none }
  lease := none
  leaseExpiresAt := none

end Row

end Renvor
