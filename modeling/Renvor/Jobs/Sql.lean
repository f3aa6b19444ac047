import Renvor.Database.Engine
import Renvor.Database.Error
import Renvor.Foundation.RowSet
import Renvor.Foundation.Transaction
import Renvor.Foundation.TransitionSystem
import Renvor.Jobs.SqlRow
import Renvor.Kernel.Arithmetic

/-! # The SQL job store

Every call is a few statements against `rv_job` and `rv_job_queue`: a claim
takes expired leases back in a statement of its own, then selects and leases in
one transaction and reads the row back after the commit. How the engine
compares texts is left open, and in what order it scans rows.
-/

namespace Renvor

open Foundation

/-- The rows of `rv_job` and `rv_job_queue`. -/
structure JobTables where
  jobs : List JobRow
  queues : List String

/-- What a statement does to the tables, or why it fails. -/
abbrev JobStatement (α : Type) := JobTables → Except DatabaseErrorKind (α × JobTables)

namespace JobTables

variable (engine : SqlEngine)

/-- The queue's row, created once and then left alone. -/
def upsertQueue (queue : String) : JobStatement Unit := fun tables =>
  .ok ((), if tables.queues.any (engine.same queue) then tables
    else { tables with queues := queue :: tables.queues })

/-- `SELECT queue FROM rv_job_queue WHERE queue = ? FOR UPDATE`. -/
def lockQueue (queue : String) : JobStatement String := fun tables =>
  match tables.queues.find? (engine.same queue) with
  | some held => .ok (held, tables)
  | none => .error .notFound

/-- `SELECT id FROM rv_job WHERE queue = ? AND idempotency_key = ?`. -/
def idForKey (queue key : String) : JobStatement (Option (List Byte)) := fun tables =>
  let holder := tables.jobs.find? fun row =>
    engine.same row.queue queue && row.idempotencyKey.any fun held => engine.same held key
  .ok (holder.map JobRow.id, tables)

/-- `SELECT COUNT(*) FROM rv_job WHERE queue = ? AND state IN (0, 1)`. -/
def countLive (queue : String) : JobStatement Nat := fun tables =>
  .ok ((tables.jobs.filter fun row =>
    engine.same row.queue queue && (row.state = 0 || row.state = 1)).length, tables)

/-- Whether two rows clash in the primary key or in the unique index of
`(queue, idempotency_key)`, where a null key never does. -/
def clash (row other : JobRow) : Bool :=
  row.id = other.id || (engine.same row.queue other.queue &&
    row.idempotencyKey.any fun key => other.idempotencyKey.any (engine.same key))

/-- `INSERT INTO rv_job …`. -/
def insert (row : JobRow) : JobStatement Unit := fun tables =>
  if tables.jobs.any (clash engine row) then .error .uniqueViolation
  else .ok ((), { tables with jobs := row :: tables.jobs })

/-- The bounded reclaim: ready again while attempts remain, otherwise dead. -/
def reclaim (queue : String) (now : Instant) : JobStatement Unit := fun tables =>
  let expired := fun row : JobRow =>
    engine.same row.queue queue && row.state = 1 && row.leaseExpiresAt.any (· ≤ now)
  let jobs := tables.jobs |> updateFirst expired
    (fun row => { row with
      state := if row.attempts ≥ row.maxAttempts then 3 else 0
      leaseToken := none
      leaseExpiresAt := none
      lastFailure := some 4
      updatedAt := now
      completedAt := if row.attempts ≥ row.maxAttempts then some now else none })
    reclaimBatch
  .ok ((), { tables with jobs })

/-- `SELECT … WHERE queue = ? AND state = 0 AND run_at <= ? ORDER BY run_at, id
LIMIT 1 FOR UPDATE SKIP LOCKED`. -/
def oldestRunnable (queue : String) (now : Instant) : JobStatement (Option JobRow) := fun tables =>
  let runnable := tables.jobs.filter fun row =>
    engine.same row.queue queue && row.state = 0 && row.runAt ≤ now
  .ok (runnable.argmin fun row => toLex (row.runAt, row.id), tables)

/-- `UPDATE rv_job SET … WHERE …`, answered with the rows affected. -/
def update (matched : JobRow → Bool) (change : JobRow → JobRow) : JobStatement Nat := fun tables =>
  .ok ((tables.jobs.filter matched).length,
    { tables with jobs := updateWhere matched change tables.jobs })

/-- The lease, re-checking the state. A counter past its column's range is
rejected. -/
def lease (token : LeaseToken) (expiresAt now : Instant) (id : List Byte) : JobStatement Nat :=
  fun tables =>
    let matched := fun row : JobRow => row.id = id && row.state = 0
    if tables.jobs.any fun row => matched row && row.attempts + 1 > i32Max then
      .error .statementRejected
    else
      update matched
        (fun row => { row with
          state := 1
          attempts := row.attempts + 1
          leaseToken := some token.bytes
          leaseExpiresAt := some expiresAt
          updatedAt := now })
        tables

/-- `UPDATE rv_job SET state = 2 … WHERE lease_token = ? AND state = 1`. -/
def complete (token : LeaseToken) (now : Instant) : JobStatement Nat :=
  update (fun row => row.leaseToken = some token.bytes && row.state = 1)
    fun row => { row with state := 2, completedAt := some now, updatedAt := now }

/-- `SELECT state FROM rv_job WHERE lease_token = ?`. -/
def stateForLease (token : LeaseToken) : JobStatement (Option Int) := fun tables =>
  let holder := tables.jobs.find? fun row => row.leaseToken = some token.bytes
  .ok (holder.map JobRow.state, tables)

/-- `SELECT id, attempts, max_attempts FROM rv_job WHERE lease_token = ? AND
state = 1 FOR UPDATE`. -/
def heldForLease (token : LeaseToken) : JobStatement (Option (List Byte × Int × Int)) :=
  fun tables =>
    let holder := tables.jobs.find? fun row => row.leaseToken = some token.bytes && row.state = 1
    .ok (holder.map fun row => (row.id, row.attempts, row.maxAttempts), tables)

/-- `UPDATE rv_job SET state = 3 … WHERE id = ? AND state = 1`. -/
def bury (id : List Byte) (code : Int) (now : Instant) : JobStatement Nat :=
  update (fun row => row.id = id && row.state = 1)
    fun row => { row with
      state := 3
      lastFailure := some code
      leaseToken := none
      leaseExpiresAt := none
      completedAt := some now
      updatedAt := now }

/-- `UPDATE rv_job SET state = 0, run_at = ? … WHERE id = ? AND state = 1`. -/
def reschedule (id : List Byte) (code : Int) (nextRunAt now : Instant) : JobStatement Nat :=
  update (fun row => row.id = id && row.state = 1)
    fun row => { row with
      state := 0
      lastFailure := some code
      leaseToken := none
      leaseExpiresAt := none
      runAt := nextRunAt
      updatedAt := now }

/-- `UPDATE rv_job SET state = 0, run_at = ? … WHERE lease_token = ? AND
state = 1`. -/
def release (token : LeaseToken) (now : Instant) : JobStatement Nat :=
  update (fun row => row.leaseToken = some token.bytes && row.state = 1)
    fun row => { row with
      state := 0, runAt := now, leaseToken := none, leaseExpiresAt := none, updatedAt := now }

/-- `UPDATE rv_job SET state = 0, attempts = 0 … WHERE id = ? AND state = 3`. -/
def revive (id : JobId) (now : Instant) : JobStatement Nat :=
  update (fun row => row.id = id.bytes && row.state = 3)
    fun row => { row with
      state := 0
      attempts := 0
      runAt := now
      updatedAt := now
      completedAt := none
      lastFailure := none
      leaseToken := none
      leaseExpiresAt := none }

/-- `SELECT COUNT(*) FROM rv_job WHERE id = ?`. -/
def countId (id : JobId) : JobStatement Nat := fun tables =>
  .ok ((tables.jobs.filter fun row => row.id = id.bytes).length, tables)

/-- `SELECT … FROM rv_job WHERE id = ?`. -/
def rowForId (id : JobId) : JobStatement (Option JobRow) := fun tables =>
  .ok (tables.jobs.find? fun row => row.id = id.bytes, tables)

end JobTables

/-- A classified failure as the job port's error. -/
def jobError : DatabaseErrorKind → JobError
  | .acquireTimeout | .deadlineExceeded => .timedOut
  | _ => .unavailable

/-- A call in progress; the client counts its draws of entropy. -/
abbrev JobClient (α : Type) := Client DatabaseErrorKind JobTables Nat JobError α

namespace SqlxJobStore

variable (engine : SqlEngine) (bounds : JobBounds) (entropy : Entropy)

/-- Sixteen bytes from the entropy source. -/
def draw : JobClient Sixteen := Client.keep fun drawn =>
  (match entropy drawn with
    | some bytes => .ok bytes
    | none => .error .entropyUnavailable, drawn + 1)

/-- The job that holds a key, if any. -/
def existingForKey (queue : QueueName) (key : IdempotencyKey) : JobClient (Option JobId) := do
  match ← Client.autocommit jobError (JobTables.idForKey engine queue.text key.text) with
  | some bytes => some <$> Client.ofExcept (sixteen bytes)
  | none => pure none

/-- The row of a new job. -/
def insertedRow (id : JobId) (job : NewJob) (now : Instant) : JobRow where
  id := id.bytes
  queue := job.queue.text
  kind := job.kind.text
  payload := job.payload.bytes
  idempotencyKey := job.idempotencyKey.map IdempotencyKey.text
  state := 0
  attempts := 0
  maxAttempts := job.maxAttempts
  runAt := job.runAt.getD now
  leaseToken := none
  leaseExpiresAt := none
  lastFailure := none
  createdAt := now
  updatedAt := now
  completedAt := none

/-- The depth, counted under the queue's lock, and the row. -/
def enqueueCounted (job : NewJob) (now : Instant) : JobClient Enqueued := do
  let depth ← Client.query jobError (JobTables.countLive engine job.queue.text)
  if depth ≥ bounds.maxQueueDepth then Client.fail .queueFull
  else
    let id ← draw entropy
    match ← Client.attempt (JobTables.insert engine (insertedRow id job now)) with
    | .ok () =>
        Client.commit jobError
        return .created id
    | .error kind => match kind, job.idempotencyKey with
        | .uniqueViolation, some key =>
            match ← existingForKey engine job.queue key with
            | some existing => return .duplicate existing
            | none => Client.fail .unavailable
        | kind, _ => Client.fail (jobError kind)

def enqueue (job : NewJob) (now : Instant) : JobClient Enqueued := do
  Client.autocommit jobError (JobTables.upsertQueue engine job.queue.text)
  Client.begin jobError
  let _held ← Client.query jobError (JobTables.lockQueue engine job.queue.text)
  let existing ← match job.idempotencyKey with
    | some key => Client.query jobError (JobTables.idForKey engine job.queue.text key.text)
    | none => pure none
  match existing with
  | some bytes => Enqueued.duplicate <$> Client.ofExcept (sixteen bytes)
  | none => enqueueCounted engine bounds entropy job now

def claim (queue : QueueName) (now : Instant) (lease : Nat) : JobClient ClaimEnd := do
  Client.autocommit jobError (JobTables.reclaim engine queue.text now)
  Client.begin jobError
  match ← Client.query jobError (JobTables.oldestRunnable engine queue.text now) with
  | none =>
      Client.commit jobError
      return .answered none
  | some row =>
      let token ← draw entropy
      match leaseEnd now lease with
      -- The call ends with its transaction open, which is lost with it.
      | none => return .panicked
      | some expiresAt =>
          let affected ← Client.query jobError (JobTables.lease token expiresAt now row.id)
          if affected ≠ 1 then
            Client.rollback jobError
            return .answered none
          else
            Client.commit jobError
            let job ← Client.ofExcept (jobFromRow row bounds)
            let job := { job with
              state := .leased, attempts := saturatingAdd job.attempts 1, updatedAt := now }
            return .answered (some ⟨job, token, expiresAt⟩)

def complete (lease : LeaseToken) (now : Instant) : JobClient Completion := do
  let affected ← Client.autocommit jobError (JobTables.complete lease now)
  if affected = 1 then return .completed
  else match ← Client.autocommit jobError (JobTables.stateForLease lease) with
    | some 2 => return .alreadyCompleted
    | _ => Client.fail .leaseNotHeld

def fail (lease : LeaseToken) (failure : FailureKind) (nextRunAt now : Instant) :
    JobClient FailureOutcome := do
  Client.begin jobError
  match ← Client.query jobError (JobTables.heldForLease lease) with
  | none => Client.fail .leaseNotHeld
  | some (id, attempts, maxAttempts) =>
      let attempts := if 0 ≤ attempts then attempts.toNat else u32Max
      let maxAttempts := maxAttempts.toNat
      let dead := failure.isTerminal || attempts ≥ maxAttempts
      let affected ← Client.query jobError <|
        if dead then JobTables.bury id failure.asU8 now
        else JobTables.reschedule id failure.asU8 nextRunAt now
      if affected ≠ 1 then Client.fail .leaseNotHeld
      else
        Client.commit jobError
        return if dead then .deadLettered attempts else .rescheduled nextRunAt attempts

def release (lease : LeaseToken) (now : Instant) : JobClient Unit := do
  let affected ← Client.autocommit jobError (JobTables.release lease now)
  if affected = 1 then return () else Client.fail .leaseNotHeld

def revive (id : JobId) (now : Instant) : JobClient Bool := do
  let affected ← Client.autocommit jobError (JobTables.revive id now)
  if affected = 1 then return true
  else
    let count ← Client.autocommit jobError (JobTables.countId id)
    if count = 0 then Client.fail .notFound else return false

def read (id : JobId) : JobClient (Option Job) := do
  match ← Client.autocommit jobError (JobTables.rowForId id) with
  | some row => some <$> Client.ofExcept (jobFromRow row bounds)
  | none => return none

def depth (queue : QueueName) : JobClient Nat :=
  Client.autocommit jobError (JobTables.countLive engine queue.text)

end SqlxJobStore

/-- The stored tables, and how often entropy was drawn. -/
structure SqlxJobStore where
  tables : JobTables
  drawn : Nat

namespace SqlxJobStore

variable (engine : SqlEngine) (bounds : JobBounds) (entropy : Entropy)

def empty : SqlxJobStore := ⟨⟨[], []⟩, 0⟩

/-- A call of its own, some of whose statements may fail: what it leaves
committed. -/
def perform {α : Type} (store : SqlxJobStore) (faults : Nat → Option DatabaseErrorKind)
    (call : JobClient α) : Except JobError α × SqlxJobStore :=
  let (result, session) := call faults (.start store.tables store.drawn)
  (result, ⟨session.committed, session.own⟩)

/-- One call. -/
def run (faults : Nat → Option DatabaseErrorKind) (store : SqlxJobStore) :
    JobOp → JobAnswer × SqlxJobStore
  | .enqueue job now =>
      (store.perform faults (enqueue engine bounds entropy job now)).map .enqueued id
  | .claim queue now lease =>
      (store.perform faults (claim engine bounds entropy queue now lease)).map .ofClaim id
  | .complete lease now => (store.perform faults (complete lease now)).map .completed id
  | .fail lease failure nextRunAt now =>
      (store.perform faults (fail lease failure nextRunAt now)).map .failed id
  | .release lease now => (store.perform faults (release lease now)).map .released id
  | .revive job now => (store.perform faults (revive job now)).map .revived id
  | .read job => (store.perform faults (read bounds job)).map .found id
  | .depth queue => (store.perform faults (depth engine queue)).map .counted id

/-- The same store, its rows scanned in another order. -/
def Rescanned (store other : SqlxJobStore) : Prop :=
  store.tables.jobs.Perm other.tables.jobs ∧ store.tables.queues = other.tables.queues ∧
    store.drawn = other.drawn

end SqlxJobStore

/-- Any sequence of calls on one database, each one atomic and none of whose
statements fails by itself, whatever order each of them scans the rows in. -/
def sqlSystem (engine : SqlEngine) (bounds : JobBounds) (entropy : Entropy) :
    TransitionSystem SqlxJobStore (JobOp × JobAnswer) where
  Initial store := store = .empty
  Step before label after := ∃ scanned, before.Rescanned scanned ∧
    scanned.run engine bounds entropy Client.quiet label.1 = (label.2, after)

namespace SqlxJobStore

variable (engine : SqlEngine) (bounds : JobBounds) (entropy : Entropy)

/-- Calls one after another, with their answers. -/
def answers (store : SqlxJobStore) : List JobOp → List (JobOp × JobAnswer)
  | [] => []
  | op :: ops => (op, (store.run engine bounds entropy Client.quiet op).1) ::
      ((store.run engine bounds entropy Client.quiet op).2).answers ops

/-- The store after a list of calls. -/
def after (store : SqlxJobStore) : List JobOp → SqlxJobStore
  | [] => store
  | op :: ops => ((store.run engine bounds entropy Client.quiet op).2).after ops

/-- A list of calls is a run. -/
theorem run_answers (store : SqlxJobStore) (ops : List JobOp) :
    (sqlSystem engine bounds entropy).Run store (store.answers engine bounds entropy ops)
      (store.after engine bounds entropy ops) := by
  induction ops generalizing store with
  | nil => exact .refl
  | cons op ops ih =>
      have first : (sqlSystem engine bounds entropy).Step store
          (op, (store.run engine bounds entropy Client.quiet op).1)
          (store.run engine bounds entropy Client.quiet op).2 :=
        ⟨store, ⟨.refl _, rfl, rfl⟩, rfl⟩
      exact (TransitionSystem.Run.single first).trans (ih _)

theorem map_answers (store : SqlxJobStore) (ops : List JobOp) :
    (store.answers engine bounds entropy ops).map Prod.fst = ops := by
  induction ops generalizing store with
  | nil => rfl
  | cons op ops ih => rw [answers, List.map_cons, ih]

end SqlxJobStore

end Renvor
