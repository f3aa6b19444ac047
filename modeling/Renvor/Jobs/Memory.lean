import Renvor.Foundation.OrderedMap
import Renvor.Foundation.RowSet
import Renvor.Foundation.TransitionSystem
import Renvor.Jobs.Job
import Mathlib.Logic.Function.Basic

/-! # The in-memory job store

Every transition runs under one lock, so a call is one step. The rows are a
hash map: they are scanned in no particular order, which may differ from call
to call. A claim that panics poisons the lock, and the next call takes it all
the same, with what the claim has written by then.
-/

namespace Renvor

open Foundation

/-- Claim order: by run time, then by identifier. -/
abbrev ReadyKey := Int ×ₗ JobId

def readyKey (runAt : Instant) (id : JobId) : ReadyKey := toLex (runAt, id)

/-- The rows, the unique keys, and the ready jobs in claim order. -/
structure Table where
  rows : List Row
  keys : QueueName × IdempotencyKey → Option JobId
  ready : OrderedMap ReadyKey JobId

/-- The store: its table and how often it has drawn entropy. -/
structure MemoryJobStore where
  table : Table
  drawn : Nat

namespace Table

def empty : Table := ⟨[], fun _ => none, .empty⟩

/-- The row of a job. -/
def get (table : Table) (id : JobId) : Option Row :=
  table.rows.find? fun row => row.job.id = id

/-- Changes the row of a job in place. -/
def put (table : Table) (id : JobId) (change : Row → Row) : Table :=
  { table with rows := updateWhere (fun row => row.job.id = id) change table.rows }

/-- Takes one expired lease back: ready again, or dead at the last attempt. -/
def reclaimOne (now : Instant) (table : Table) (id : JobId) : Table :=
  match table.get id with
  | none => table
  | some row =>
      if row.job.attempts ≥ row.job.maxAttempts then table.put id (Row.reclaim now)
      else
        { table.put id (Row.reclaim now) with
          ready := table.ready.insert (readyKey row.job.runAt id) id }

/-- Takes a batch of a queue's expired leases back. -/
def reclaimExpired (table : Table) (queue : QueueName) (now : Instant) : Table :=
  let expired := ((table.rows.filter (Row.expired queue now)).take reclaimBatch).map
    fun row => row.job.id
  expired.foldl (reclaimOne now) table

/-- The row a lease token names, if the token is still held. -/
def rowForLease (table : Table) (lease : LeaseToken) : Option Row :=
  table.rows.find? fun row => row.lease = some lease

/-- The quantity the depth bound counts. -/
def depth (table : Table) (queue : QueueName) : Nat :=
  (table.rows.filter (Row.counted queue)).length

end Table

namespace MemoryJobStore

variable (bounds : JobBounds) (entropy : Entropy)

def empty : MemoryJobStore := ⟨.empty, 0⟩

/-- Sixteen bytes from the entropy source, which counts the draw. -/
def draw (store : MemoryJobStore) : Except JobError Sixteen × MemoryJobStore :=
  (match entropy store.drawn with
    | some bytes => .ok bytes
    | none => .error .entropyUnavailable,
    { store with drawn := store.drawn + 1 })

def enqueue (store : MemoryJobStore) (job : NewJob) (now : Instant) :
    Except JobError Enqueued × MemoryJobStore :=
  match job.idempotencyKey.bind fun key => store.table.keys (job.queue, key) with
  | some existing => (.ok (.duplicate existing), store)
  | none =>
      if store.table.depth job.queue ≥ bounds.maxQueueDepth then (.error .queueFull, store)
      else match store.draw entropy with
        | (.error error, store) => (.error error, store)
        | (.ok id, store) =>
            let row := Row.enqueued id job now
            (.ok (.created id), { store with table := {
              rows := row :: store.table.rows.filter fun other => other.job.id ≠ id
              keys := match job.idempotencyKey with
                | some key => Function.update store.table.keys (job.queue, key) (some id)
                | none => store.table.keys
              ready := store.table.ready.insert (readyKey row.job.runAt id) id } })

def claim (store : MemoryJobStore) (queue : QueueName) (now : Instant) (lease : Nat) :
    Except JobError ClaimEnd × MemoryJobStore :=
  let table := store.table.reclaimExpired queue now
  let candidate := table.ready.find? fun (key, id) =>
    decide ((ofLex key).1 ≤ now) && (table.get id).any fun row =>
      row.job.queue = queue && row.job.state = .ready
  match candidate with
  | none => (.ok (.answered none), { store with table })
  | some (key, id) =>
      match { store with table }.draw entropy with
      | (.error error, store) => (.error error, store)
      | (.ok token, store) =>
          let table := { table with ready := table.ready.erase key }
          match table.get id with
          | none => (.error .notFound, { store with table })
          | some row => match leaseEnd now lease with
              | some expiresAt =>
                  (.ok (.answered (some ⟨(row.claim token now lease).job, token, expiresAt⟩)),
                    { store with table := table.put id (Row.claim token now lease) })
              -- The state, the attempt and the token are written before the sum is taken.
              | none =>
                  (.ok .panicked, { store with table := table.put id (Row.overrun token now) })

def complete (store : MemoryJobStore) (lease : LeaseToken) (now : Instant) :
    Except JobError Completion × MemoryJobStore :=
  match store.table.rowForLease lease with
  | none => (.error .leaseNotHeld, store)
  | some row => match row.job.state with
      | .leased =>
          (.ok .completed, { store with table := store.table.put row.job.id (Row.complete now) })
      | .completed => (.ok .alreadyCompleted, store)
      | _ => (.error .leaseNotHeld, store)

def fail (store : MemoryJobStore) (lease : LeaseToken) (failure : FailureKind)
    (nextRunAt now : Instant) : Except JobError FailureOutcome × MemoryJobStore :=
  match store.table.rowForLease lease with
  | none => (.error .leaseNotHeld, store)
  | some row =>
      if row.job.state ≠ .leased then (.error .leaseNotHeld, store)
      else if row.spent failure then
        (.ok (.deadLettered row.job.attempts),
          { store with table := store.table.put row.job.id (Row.bury failure now) })
      else
        (.ok (.rescheduled nextRunAt row.job.attempts),
          { store with table :=
            { store.table.put row.job.id (Row.reschedule failure nextRunAt now) with
              ready := store.table.ready.insert (readyKey nextRunAt row.job.id) row.job.id } })

def release (store : MemoryJobStore) (lease : LeaseToken) (now : Instant) :
    Except JobError Unit × MemoryJobStore :=
  match store.table.rowForLease lease with
  | none => (.error .leaseNotHeld, store)
  | some row =>
      if row.job.state ≠ .leased then (.error .leaseNotHeld, store)
      else
        (.ok (), { store with table := { store.table.put row.job.id (Row.release now) with
          ready := store.table.ready.insert (readyKey now row.job.id) row.job.id } })

def revive (store : MemoryJobStore) (id : JobId) (now : Instant) :
    Except JobError Bool × MemoryJobStore :=
  match store.table.get id with
  | none => (.error .notFound, store)
  | some row =>
      if row.job.state ≠ .dead then (.ok false, store)
      else
        (.ok true, { store with table := { store.table.put id (Row.revive now) with
          ready := store.table.ready.insert (readyKey now id) id } })

def read (store : MemoryJobStore) (id : JobId) : Except JobError (Option Job) :=
  .ok ((store.table.get id).map Row.job)

def depth (store : MemoryJobStore) (queue : QueueName) : Except JobError Nat :=
  .ok (store.table.depth queue)

/-- One call, with the lock held. -/
def run (store : MemoryJobStore) : JobOp → JobAnswer × MemoryJobStore
  | .enqueue job now => (store.enqueue bounds entropy job now).map .enqueued id
  | .claim queue now lease => (store.claim entropy queue now lease).map .ofClaim id
  | .complete lease now => (store.complete lease now).map .completed id
  | .fail lease failure nextRunAt now => (store.fail lease failure nextRunAt now).map .failed id
  | .release lease now => (store.release lease now).map .released id
  | .revive job now => (store.revive job now).map .revived id
  | .read job => (.found (store.read job), store)
  | .depth queue => (.counted (store.depth queue), store)

/-- The same store, its rows scanned in another order. -/
def Rescanned (store other : MemoryJobStore) : Prop :=
  store.table.rows.Perm other.table.rows ∧ store.table.keys = other.table.keys ∧
    store.table.ready = other.table.ready ∧ store.drawn = other.drawn

end MemoryJobStore

/-- Any sequence of calls on one store, whatever order each of them scans the
rows in. -/
def memorySystem (bounds : JobBounds) (entropy : Entropy) :
    TransitionSystem MemoryJobStore (JobOp × JobAnswer) where
  Initial store := store = .empty
  Step before label after := ∃ scanned, before.Rescanned scanned ∧
    scanned.run bounds entropy label.1 = (label.2, after)

namespace MemoryJobStore

variable (bounds : JobBounds) (entropy : Entropy)

/-- Calls one after another, with their answers. -/
def answers (store : MemoryJobStore) : List JobOp → List (JobOp × JobAnswer)
  | [] => []
  | op :: ops => (op, (store.run bounds entropy op).1) ::
      ((store.run bounds entropy op).2).answers ops

/-- The store after a list of calls. -/
def after (store : MemoryJobStore) : List JobOp → MemoryJobStore
  | [] => store
  | op :: ops => ((store.run bounds entropy op).2).after ops

theorem step_run (store : MemoryJobStore) (op : JobOp) :
    (memorySystem bounds entropy).Step store (op, (store.run bounds entropy op).1)
      (store.run bounds entropy op).2 :=
  ⟨store, ⟨.refl _, rfl, rfl, rfl⟩, rfl⟩

/-- A list of calls is a run. -/
theorem run_answers (store : MemoryJobStore) (ops : List JobOp) :
    (memorySystem bounds entropy).Run store (store.answers bounds entropy ops)
      (store.after bounds entropy ops) := by
  induction ops generalizing store with
  | nil => exact .refl
  | cons op ops ih =>
      exact (TransitionSystem.Run.single (step_run bounds entropy store op)).trans (ih _)

theorem reachable_after (ops : List JobOp) :
    (memorySystem bounds entropy).Reachable (empty.after bounds entropy ops) :=
  ⟨empty, _, rfl, run_answers bounds entropy empty ops⟩

end MemoryJobStore

end Renvor
