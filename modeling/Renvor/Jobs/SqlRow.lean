import Renvor.Jobs.Job
import Mathlib.Data.List.MinMax

/-! # The columns of a stored job

A job is stored as one row of `rv_job`: identifiers and tokens as bytes, names
as text, states and failures as codes, counters as signed integers. Reading a
row back checks every column and bounds the payload. What is written always
decodes (`Renvor.JobRow.decode_encode`), but only within the reader's bounds.
The trace column is left out.
-/

namespace Renvor

namespace JobState

/-- The stored code. -/
def asU8 : JobState → Nat
  | .ready => 0
  | .leased => 1
  | .completed => 2
  | .dead => 3

/-- The state for a stored code. -/
def fromU8 : Nat → Option JobState
  | 0 => some .ready
  | 1 => some .leased
  | 2 => some .completed
  | 3 => some .dead
  | _ => none

@[simp] theorem fromU8_asU8 (state : JobState) : fromU8 state.asU8 = some state := by
  cases state <;> rfl

end JobState

namespace FailureKind

/-- The stored code. -/
def asU8 : FailureKind → Nat
  | .handlerFailed => 1
  | .timedOut => 2
  | .panicked => 3
  | .leaseExpired => 4
  | .abandoned => 5

/-- The kind for a stored code. -/
def fromU8 : Nat → Option FailureKind
  | 1 => some .handlerFailed
  | 2 => some .timedOut
  | 3 => some .panicked
  | 4 => some .leaseExpired
  | 5 => some .abandoned
  | _ => none

@[simp] theorem fromU8_asU8 (failure : FailureKind) : fromU8 failure.asU8 = some failure := by
  cases failure <;> rfl

end FailureKind

/-- The bounds every payload is within. -/
def JobBounds.widest : JobBounds where
  maxPayloadBytes := maxPayloadBytesCap
  maxQueueDepth := defaultMaxQueueDepth
  payload := by decide
  depth := JobBounds.default.depth

/-- One row of `rv_job`. -/
structure JobRow where
  id : List Byte
  queue : String
  kind : String
  payload : List Byte
  idempotencyKey : Option String
  state : Int
  attempts : Int
  maxAttempts : Int
  runAt : Instant
  leaseToken : Option (List Byte)
  leaseExpiresAt : Option Instant
  lastFailure : Option Int
  createdAt : Instant
  updatedAt : Instant
  completedAt : Option Instant

/-- A stored value that cannot be what the store wrote. -/
def corrupt : JobError := .unavailable

/-- An identifier or a token from its bytes. -/
def sixteen (bytes : List Byte) : Except JobError Sixteen :=
  if width : bytes.length = 16 then .ok ⟨bytes, width⟩ else .error corrupt

def attemptsFrom (value : Int) : Except JobError Nat :=
  if 0 ≤ value then .ok value.toNat else .error corrupt

/-- What a code column stands for. -/
def codeFrom {Kind : Type} (fromU8 : Nat → Option Kind) (code : Int) : Except JobError Kind :=
  match if 0 ≤ code then fromU8 code.toNat else none with
  | some kind => .ok kind
  | none => .error corrupt

/-- A payload read back, within the reader's bounds. -/
def JobPayload.fromStored (bytes : List Byte) (bounds : JobBounds) : Except JobError JobPayload :=
  JobPayload.within bytes bounds

/-- A name that was checked when it was written. -/
def stored {Name : Type} (result : Except JobError Name) : Except JobError Name :=
  result.mapError fun _ => corrupt

/-- Rebuilds a job from a row, bounding the payload. -/
def jobFromRow (row : JobRow) (bounds : JobBounds) : Except JobError Job := do
  let state ← codeFrom JobState.fromU8 row.state
  let lastFailure ← row.lastFailure.mapM (codeFrom FailureKind.fromU8)
  let id ← sixteen row.id
  let queue ← stored (QueueName.new row.queue)
  let kind ← stored (JobKind.new row.kind)
  let payload ← JobPayload.fromStored row.payload bounds
  let attempts ← attemptsFrom row.attempts
  let maxAttempts ← attemptsFrom row.maxAttempts
  let idempotencyKey ← row.idempotencyKey.mapM fun key => stored (IdempotencyKey.new key)
  return {
    id, queue, kind, payload, state, attempts, maxAttempts
    runAt := row.runAt
    idempotencyKey, lastFailure
    createdAt := row.createdAt
    updatedAt := row.updatedAt
    finishedAt := row.completedAt }

/-- The columns of a job. -/
def Row.encode (row : Row) : JobRow where
  id := row.job.id.bytes
  queue := row.job.queue.text
  kind := row.job.kind.text
  payload := row.job.payload.bytes
  idempotencyKey := row.job.idempotencyKey.map IdempotencyKey.text
  state := row.job.state.asU8
  attempts := row.job.attempts
  maxAttempts := row.job.maxAttempts
  runAt := row.job.runAt
  leaseToken := row.lease.map Sixteen.bytes
  leaseExpiresAt := row.leaseExpiresAt
  lastFailure := row.job.lastFailure.map fun failure => (failure.asU8 : Int)
  createdAt := row.job.createdAt
  updatedAt := row.job.updatedAt
  completedAt := row.job.finishedAt

namespace JobRow

/-- The job a row holds, with its lease. -/
def decode (row : JobRow) : Option Row := do
  let job ← (jobFromRow row .widest).toOption
  let lease ← match row.leaseToken with
    | none => some none
    | some bytes => (sixteen bytes).toOption.map some
  return { job, lease, leaseExpiresAt := row.leaseExpiresAt }

end JobRow

/-! ## What is written reads back -/

@[simp] theorem sixteen_bytes (bytes : Sixteen) : sixteen bytes.bytes = .ok bytes :=
  dif_pos bytes.width

@[simp] theorem attemptsFrom_natCast (attempts : Nat) :
    attemptsFrom (attempts : Int) = .ok attempts := by
  simp [attemptsFrom]

@[simp] theorem codeFrom_state (state : JobState) :
    codeFrom JobState.fromU8 (state.asU8 : Int) = .ok state := by
  simp [codeFrom]

@[simp] theorem codeFrom_failure (failure : FailureKind) :
    codeFrom FailureKind.fromU8 (failure.asU8 : Int) = .ok failure := by
  simp [codeFrom]

@[simp] theorem stored_queue (queue : QueueName) : stored (QueueName.new queue.text) = .ok queue := by
  simp [stored, QueueName.new, queue.valid, Except.mapError]

@[simp] theorem stored_kind (kind : JobKind) : stored (JobKind.new kind.text) = .ok kind := by
  simp [stored, JobKind.new, kind.valid, Except.mapError]

@[simp] theorem stored_key (key : IdempotencyKey) :
    stored (IdempotencyKey.new key.text) = .ok key := by
  simp [stored, IdempotencyKey.new, key.valid, Except.mapError]

theorem fromStored_bytes (payload : JobPayload) (bounds : JobBounds) :
    JobPayload.fromStored payload.bytes bounds =
      if payload.bytes.length ≤ bounds.maxPayloadBytes then .ok payload
      else .error (.refused .payloadTooLarge) := by
  rw [JobPayload.fromStored, JobPayload.within]
  split <;> rfl

/-- **A written job reads back within bounds that hold its payload**, and is
refused by any others. -/
theorem jobFromRow_encode (row : Row) (bounds : JobBounds) :
    jobFromRow row.encode bounds =
      if row.job.payload.bytes.length ≤ bounds.maxPayloadBytes then .ok row.job
      else .error (.refused .payloadTooLarge) := by
  have failure : (row.job.lastFailure.map fun failure => (failure.asU8 : Int)).mapM
      (codeFrom FailureKind.fromU8) = .ok row.job.lastFailure := by
    cases row.job.lastFailure <;> simp [pure, Except.pure, Functor.map, Except.map]
  have key : (row.job.idempotencyKey.map IdempotencyKey.text).mapM
      (fun key => stored (IdempotencyKey.new key)) = .ok row.job.idempotencyKey := by
    cases row.job.idempotencyKey <;> simp [pure, Except.pure, Functor.map, Except.map]
  simp only [jobFromRow, Row.encode, codeFrom_state, failure, sixteen_bytes, stored_queue,
    stored_kind, attemptsFrom_natCast, key, fromStored_bytes]
  by_cases fits : row.job.payload.bytes.length ≤ bounds.maxPayloadBytes
  · simp only [if_pos fits]
    rfl
  · simp only [if_neg fits]
    rfl

namespace JobRow

/-- **What is written decodes.** -/
@[simp] theorem decode_encode (row : Row) : row.encode.decode = some row := by
  have capped : row.job.payload.bytes.length ≤ JobBounds.widest.maxPayloadBytes :=
    row.job.payload.capped
  rw [decode, jobFromRow_encode, if_pos capped]
  obtain ⟨job, lease, expires⟩ := row
  cases lease <;> simp [Row.encode, Except.toOption]

end JobRow

theorem Row.encode_injective {left right : Row} (same : left.encode = right.encode) :
    left = right := by
  have decoded := congrArg JobRow.decode same
  simpa using decoded

end Renvor
