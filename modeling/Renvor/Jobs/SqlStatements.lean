import Renvor.Jobs.Sql

/-! # Statements over written rows

Where every row of `rv_job` was written by the store, each statement is a
statement about jobs: its predicate is one about the job and its assignment
writes the job that a transition leaves. A predicate about a queue or a key is
true of whatever names the engine takes for it, as its collation has it.
-/

namespace Renvor

open Foundation

/-- The queues an engine takes for this one. -/
def SqlEngine.inQueue (engine : SqlEngine) (queue : QueueName) : QueueName → Bool :=
  fun other => engine.same other.text queue.text

/-- Whether an engine takes a job's key for this one. -/
def SqlEngine.holdsKey (engine : SqlEngine) (key : IdempotencyKey) (row : Row) : Bool :=
  row.job.idempotencyKey.any fun held => engine.same held.text key.text

/-- Written rows, and the queues that were locked. -/
def written (rows : List Row) (queues : List String) : JobTables := ⟨rows.map Row.encode, queues⟩

namespace Row

variable (row : Row)

/-- The identifier column of a written row holds the bytes of the job's identifier. -/
@[simp] theorem encode_id : row.encode.id = row.job.id.bytes := rfl

/-- The queue column of a written row holds the text of the queue's name, byte for byte. -/
@[simp] theorem encode_queue : row.encode.queue = row.job.queue.text := rfl

/-- The instant a job may run from is written as it is. -/
@[simp] theorem encode_runAt : row.encode.runAt = row.job.runAt := rfl

/-- A written row is found by the bytes of a lease token exactly where the job is held under that
token. -/
@[simp] theorem encode_leaseToken_eq (token : LeaseToken) :
    row.encode.leaseToken = some token.bytes ↔ row.lease = some token := by
  cases held : row.lease <;> simp [encode, held]

/-- What a ready job's state reads as: no other state is written with the number zero. -/
@[simp] theorem encode_state_eq_ready : row.encode.state = 0 ↔ row.job.state = .ready := by
  cases state : row.job.state <;> simp [encode, state, JobState.asU8]

/-- What a leased job's state reads as: no other state is written with the number one. -/
@[simp] theorem encode_state_eq_leased : row.encode.state = 1 ↔ row.job.state = .leased := by
  cases state : row.job.state <;> simp [encode, state, JobState.asU8]

/-- What a dead job's state reads as: no other state is written with the number three. -/
@[simp] theorem encode_state_eq_dead : row.encode.state = 3 ↔ row.job.state = .dead := by
  cases state : row.job.state <;> simp [encode, state, JobState.asU8]

/-- What a completed job's state reads as. -/
theorem encode_state_eq_completed : row.encode.state = 2 ↔ row.job.state = .completed := by
  cases state : row.job.state <;> simp [encode, state, JobState.asU8]

end Row

namespace JobTables

variable {engine : SqlEngine} {rows : List Row} {queues : List String}

/-- An update of written rows is an update of jobs. -/
theorem update_written {chosen : JobRow → Bool} {alter : JobRow → JobRow} {matched : Row → Bool}
    {change : Row → Row} (same : ∀ row : Row, chosen row.encode = matched row)
    (alike : ∀ row ∈ rows, matched row = true → alter row.encode = (change row).encode) :
    update chosen alter (written rows queues) =
      .ok ((rows.filter matched).length, written (updateWhere matched change rows) queues) := by
  have selects : (rows.map Row.encode).filter chosen = (rows.filter matched).map Row.encode := by
    rw [List.filter_map]
    congr 1
    exact List.filter_congr fun row _ => same row
  simp only [update, written, selects, List.length_map, updateWhere_map same alike]

/-- The first written row that is chosen is the first job that is. -/
private theorem find_written {chosen : JobRow → Bool} {matched : Row → Bool}
    (same : ∀ row : Row, chosen row.encode = matched row) :
    (rows.map Row.encode).find? chosen = (rows.find? matched).map Row.encode := by
  rw [List.find?_map]
  congr 2
  exact funext same

/-- Selecting the queue's row finds one once it was upserted, whatever it is
written as. -/
theorem lockQueue_upserted (collates : engine.Collates) (queue : String) (rows : List Row)
    (queues : List String) :
    ∃ more held, upsertQueue engine queue (written rows queues) = .ok ((), written rows more) ∧
      lockQueue engine queue (written rows more) = .ok (held, written rows more) := by
  by_cases there : queues.any (engine.same queue) = true
  · obtain ⟨held, found⟩ := Option.isSome_iff_exists.mp (List.find?_isSome.mpr
      (List.any_eq_true.mp there))
    exact ⟨queues, held, by simp [upsertQueue, written, there], by simp [lockQueue, written, found]⟩
  · refine ⟨queue :: queues, queue, by simp [upsertQueue, written, there], ?_⟩
    simp [lockQueue, written, collates.refl queue]

/-- Looking a key up finds the first job of the queue whose key the engine takes for this one, if
there is any. -/
theorem idForKey_written (queue : QueueName) (key : IdempotencyKey) :
    idForKey engine queue.text key.text (written rows queues) =
      .ok ((rows.find? fun row => engine.inQueue queue row.job.queue &&
        engine.holdsKey key row).map fun row => row.job.id.bytes, written rows queues) := by
  have same : ∀ row : Row, (engine.same row.encode.queue queue.text &&
      row.encode.idempotencyKey.any fun held => engine.same held key.text) =
        (engine.inQueue queue row.job.queue && engine.holdsKey key row) := by
    intro row
    cases held : row.job.idempotencyKey <;>
      simp [Row.encode, SqlEngine.inQueue, SqlEngine.holdsKey, held]
  simp only [idForKey, written]
  rw [find_written same, Option.map_map]
  rfl

/-- Counting the live rows of a queue counts its ready and its leased jobs, and changes nothing. -/
theorem countLive_written (queue : QueueName) :
    countLive engine queue.text (written rows queues) =
      .ok ((rows.filter (Row.countedIn (engine.inQueue queue))).length, written rows queues) := by
  have same : ∀ row : Row, (engine.same row.encode.queue queue.text &&
      (row.encode.state = 0 || row.encode.state = 1)) =
        row.countedIn (engine.inQueue queue) := by
    intro row
    simp [Row.countedIn, SqlEngine.inQueue]
  simp only [countLive, written, List.filter_map, List.length_map]
  congr 3
  exact List.filter_congr fun row _ => same row

/-- A new row whose identifier is new and whose key the engine finds on no row
of the queue clashes with none. -/
theorem insert_written (collates : engine.Collates) {id : JobId} {job : NewJob}
    (fresh : ∀ row ∈ rows, row.job.id ≠ id) (free : ∀ key, job.idempotencyKey = some key →
      ∀ row ∈ rows, ¬ (engine.inQueue job.queue row.job.queue && engine.holdsKey key row) = true)
    (now : Instant) :
    insert engine (SqlxJobStore.insertedRow id job now) (written rows queues) =
      .ok ((), written (Row.enqueued id job now :: rows) queues) := by
  have apart : ((rows.map Row.encode).any
      (clash engine (SqlxJobStore.insertedRow id job now))) = false := by
    rw [List.any_eq_false]
    intro code listed
    obtain ⟨row, member, rfl⟩ := List.mem_map.mp listed
    have different := fresh row member
    cases asked : job.idempotencyKey with
    | none => simp [clash, SqlxJobStore.insertedRow, asked, Ne.symm different]
    | some key =>
        have other := free key asked row member
        cases held : row.job.idempotencyKey with
        | none => simp [clash, SqlxJobStore.insertedRow, Row.encode, asked, held, Ne.symm different]
        | some taken =>
            simp only [SqlEngine.inQueue, SqlEngine.holdsKey, held, Option.any_some,
              Bool.and_eq_true, not_and] at other
            simp [clash, SqlxJobStore.insertedRow, Row.encode, asked, held, Ne.symm different]
            exact fun inQueue => Bool.eq_false_iff.mpr fun same =>
              other (collates.symm inQueue) (collates.symm same)
  simp only [insert, written, apart, Bool.false_eq_true, if_false, List.map_cons]
  rfl

/-- Reclaiming takes back the first expired leases of whatever queues the engine
takes for this one. -/
theorem reclaim_written (shaped : ∀ row ∈ rows, row.job.state = .leased →
      row.job.finishedAt = none) (queue : QueueName) (now : Instant) :
    reclaim engine queue.text now (written rows queues) =
      .ok ((), written (updateFirst (Row.expiredIn (engine.inQueue queue) now) (Row.reclaim now)
        reclaimBatch rows) queues) := by
  have same : ∀ row : Row, (engine.same row.encode.queue queue.text && row.encode.state = 1 &&
      row.encode.leaseExpiresAt.any (· ≤ now)) = row.expiredIn (engine.inQueue queue) now := by
    intro row
    simp [Row.expiredIn, SqlEngine.inQueue, Row.encode_state_eq_leased]
    rfl
  simp only [reclaim, written]
  rw [updateFirst_map same]
  intro row member expired
  have leased : row.job.state = .leased := by
    simp only [Row.expiredIn, Bool.and_eq_true, decide_eq_true_eq] at expired
    exact expired.1.2
  have unfinished := shaped row member leased
  by_cases last : row.job.attempts ≥ row.job.maxAttempts <;>
    simp [Row.encode, Row.reclaim, last, unfinished, JobState.asU8, FailureKind.asU8]

/-- The row picked to be claimed is the runnable job of the queue with the earliest instant, and
of those with the least identifier. -/
theorem oldestRunnable_written (queue : QueueName) (now : Instant) :
    oldestRunnable engine queue.text now (written rows queues) =
      .ok ((((rows.filter (Row.runnableIn (engine.inQueue queue) now)).map Row.encode).argmin
        fun row => toLex (row.runAt, row.id)), written rows queues) := by
  have same : ∀ row : Row, (engine.same row.encode.queue queue.text && row.encode.state = 0 &&
      row.encode.runAt ≤ now) = row.runnableIn (engine.inQueue queue) now := by
    intro row
    simp [Row.runnableIn, SqlEngine.inQueue]
    rfl
  simp only [oldestRunnable, written, List.filter_map]
  congr 4
  exact List.filter_congr fun row _ => same row

/-- Completing under a token finishes the leased jobs held under it and leaves all others alone. -/
theorem complete_written (token : LeaseToken) (now : Instant) :
    complete token now (written rows queues) =
      .ok ((rows.filter fun row => row.lease = some token && row.job.state = .leased).length,
        written (updateWhere (fun row => row.lease = some token && row.job.state = .leased)
          (Row.complete now) rows) queues) :=
  update_written (fun row => by simp) fun _ _ _ => rfl

/-- The state read for a token is that of the first job held under it, whatever that job's state
is. -/
theorem stateForLease_written (token : LeaseToken) :
    stateForLease token (written rows queues) =
      .ok ((rows.find? fun row => row.lease = some token).map fun row => row.encode.state,
        written rows queues) := by
  have same : ∀ row : Row, decide (row.encode.leaseToken = some token.bytes) =
      decide (row.lease = some token) := fun row => by simp
  simp only [stateForLease, written]
  rw [find_written same, Option.map_map]
  rfl

/-- What is read before a failure is recorded: the identifier and the counts of the leased job
held under the token. -/
theorem heldForLease_written (token : LeaseToken) :
    heldForLease token (written rows queues) =
      .ok ((rows.find? fun row => row.lease = some token && row.job.state = .leased).map fun row =>
        (row.job.id.bytes, (row.job.attempts : Int), (row.job.maxAttempts : Int)),
        written rows queues) := by
  have same : ∀ row : Row, (row.encode.leaseToken = some token.bytes && row.encode.state = 1) =
      (row.lease = some token && row.job.state = .leased) := fun row => by simp
  simp only [heldForLease, written]
  rw [find_written same, Option.map_map]
  rfl

/-- Burying a job by its identifier writes the dead job, and only where it is leased still. -/
theorem bury_written (id : JobId) (failure : FailureKind) (now : Instant) :
    bury id.bytes failure.asU8 now (written rows queues) =
      .ok ((rows.filter fun row => row.job.id = id && row.job.state = .leased).length,
        written (updateWhere (fun row => row.job.id = id && row.job.state = .leased)
          (Row.bury failure now) rows) queues) :=
  update_written (fun row => by simp) fun _ _ _ => rfl

/-- Rescheduling a job by its identifier makes it ready again at its next instant, where it is
leased still. -/
theorem reschedule_written (id : JobId) (failure : FailureKind) (nextRunAt now : Instant) :
    reschedule id.bytes failure.asU8 nextRunAt now (written rows queues) =
      .ok ((rows.filter fun row => row.job.id = id && row.job.state = .leased).length,
        written (updateWhere (fun row => row.job.id = id && row.job.state = .leased)
          (Row.reschedule failure nextRunAt now) rows) queues) :=
  update_written (fun row => by simp) fun _ _ _ => rfl

/-- Releasing under a token makes the leased jobs held under it ready again, their attempts as
they were counted. -/
theorem release_written (token : LeaseToken) (now : Instant) :
    release token now (written rows queues) =
      .ok ((rows.filter fun row => row.lease = some token && row.job.state = .leased).length,
        written (updateWhere (fun row => row.lease = some token && row.job.state = .leased)
          (Row.release now) rows) queues) :=
  update_written (fun row => by simp) fun _ _ _ => rfl

/-- Reviving by an identifier makes that job ready again where it is dead, and leaves any other
alone. -/
theorem revive_written (id : JobId) (now : Instant) :
    revive id now (written rows queues) =
      .ok ((rows.filter fun row => row.job.id = id && row.job.state = .dead).length,
        written (updateWhere (fun row => row.job.id = id && row.job.state = .dead)
          (Row.revive now) rows) queues) :=
  update_written (fun row => by simp) fun _ _ _ => rfl

/-- Counting the rows of an identifier tells whether there is a job of that identifier in any
state. -/
theorem countId_written (id : JobId) :
    countId id (written rows queues) =
      .ok ((rows.filter fun row => row.job.id = id).length, written rows queues) := by
  simp only [countId, written, List.filter_map, List.length_map]
  congr 3
  exact List.filter_congr fun row _ => by simp

/-- The row selected for an identifier is the written row of the job that has it. -/
theorem rowForId_written (id : JobId) :
    rowForId id (written rows queues) =
      .ok ((rows.find? fun row => row.job.id = id).map Row.encode, written rows queues) := by
  have same : ∀ row : Row, decide (row.encode.id = id.bytes) = decide (row.job.id = id) :=
    fun row => by simp
  simp only [rowForId, written]
  rw [find_written same]

/-- The lease of a ready job, while its counter has room. -/
theorem lease_written (id : JobId) (token : LeaseToken) (now : Instant) (lease : Nat) :
    JobTables.lease token (now + lease) now id.bytes (written rows queues) =
      if ∃ row ∈ rows, row.job.id = id ∧ row.job.state = .ready ∧ i32Max < row.job.attempts + 1 then
        .error .statementRejected
      else .ok ((rows.filter fun row => row.job.id = id && row.job.state = .ready).length,
        written (updateWhere (fun row => row.job.id = id && row.job.state = .ready)
          (Row.claim token now lease) rows) queues) := by
  have full : ((rows.map Row.encode).any fun row => (row.id = id.bytes && row.state = 0) &&
      row.attempts + 1 > i32Max) = true ↔
        ∃ row ∈ rows, row.job.id = id ∧ row.job.state = .ready ∧ i32Max < row.job.attempts + 1 := by
    rw [List.any_map, List.any_eq_true]
    simp only [Function.comp_apply, Bool.and_eq_true, decide_eq_true_eq, Row.encode_id,
      Sixteen.bytes_inj, Row.encode_state_eq_ready, and_assoc, gt_iff_lt]
    rfl
  have updated : update (fun row => row.id = id.bytes && row.state = 0)
      (fun row => { row with
        state := 1
        attempts := row.attempts + 1
        leaseToken := some token.bytes
        leaseExpiresAt := some (now + lease)
        updatedAt := now }) (written rows queues) =
      .ok ((rows.filter fun row => row.job.id = id && row.job.state = .ready).length,
        written (updateWhere (fun row => row.job.id = id && row.job.state = .ready)
          (Row.claim token now lease) rows) queues) :=
    update_written (fun row => by simp) fun _ _ _ => rfl
  rw [JobTables.lease]
  by_cases rejected : ∃ row ∈ rows, row.job.id = id ∧ row.job.state = .ready ∧
      i32Max < row.job.attempts + 1
  · rw [if_pos rejected]
    exact if_pos (full.mpr rejected)
  · rw [if_neg rejected, ← updated]
    exact if_neg (mt full.mp rejected)

end JobTables

end Renvor
