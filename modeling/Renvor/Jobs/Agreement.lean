import Renvor.Jobs.Answers
import Renvor.Jobs.MemoryInvariant
import Renvor.Jobs.SqlRefinement

/-! # The two stores agree

Both stores refine the job table, and the table answers in one way where a claim
takes every expired lease back. They part where the table leaves the choice
open, where only the SQL store refuses (a payload beyond its bounds does not read
back, and a counter ends with its column), where a claim panics, and where the
engine takes two names for one: the memory store compares queues and keys
exactly, and the columns of the SQL store compare by the database's collation
(`Renvor.stores_part_at_key`).
-/

namespace Renvor

open Foundation

variable {bounds : JobBounds} {entropy : Entropy} {limits : RowLimits} {before after : JobTable}
  {label : JobOp × JobAnswer}

/-- The calls both stores answer alike. -/
structure Comparable (engine : SqlEngine) (bounds : JobBounds) (rows : Multiset Row) (op : JobOp) :
    Prop where
  /-- A claim finds at most one batch of expired leases. -/
  batch : OneBatch rows op
  /-- A claim's lease ends at a time there is. -/
  lasts : op.Lasts
  /-- A new job's payload is within the stores' bounds. -/
  payload : ∀ job now, op = .enqueue job now →
    job.payload.bytes.length ≤ bounds.maxPayloadBytes
  /-- A claim finds every counter below the end of its column. -/
  counters : ∀ queue now lease, op = .claim queue now lease →
    ∀ row ∈ rows, (row.job.attempts : Int) < i32Max
  /-- Of the stored queues the engine takes only the one the call names for it. -/
  queues : ∀ queue, op.queue? = some queue → ∀ row ∈ rows,
    engine.same row.job.queue.text queue.text = true → row.job.queue = queue
  /-- Of the keys of its queue the engine takes only a new job's own for it. -/
  keys : ∀ job now, op = .enqueue job now → ∀ key, job.idempotencyKey = some key →
    ∀ row ∈ rows, row.job.queue = job.queue → ∀ held, row.job.idempotencyKey = some held →
      engine.same held.text key.text = true → held = key

/-- The stored jobs are in the queue a comparable call names exactly where the
engine takes them to be. -/
theorem Comparable.inQueue {engine : SqlEngine} (collates : engine.Collates) {rows : Multiset Row}
    {op : JobOp} (comparable : Comparable engine bounds rows op) {queue : QueueName}
    (named : op.queue? = some queue) : ∀ row ∈ rows,
      (SqlxJobStore.limits collates bounds).inQueue queue row.job.queue =
        RowLimits.none.inQueue queue row.job.queue := by
  intro row member
  by_cases same : row.job.queue = queue
  · subst same
    exact (collates.refl row.job.queue.text).trans (decide_eq_true rfl).symm
  · have apart : engine.same row.job.queue.text queue.text = false :=
      Bool.eq_false_iff.mpr fun taken => same (comparable.queues queue named row member taken)
    exact apart.trans (decide_eq_false same).symm

/-- Every stored payload is within the bounds. -/
def PayloadsWithin (bounds : JobBounds) (rows : Multiset Row) : Prop :=
  ∀ row ∈ rows, row.job.payload.bytes.length ≤ bounds.maxPayloadBytes

/-- No transition changes a payload. -/
theorem JobStep.payloads_within (step : JobStep bounds entropy limits before label after)
    (fits : ∀ job now, label.1 = .enqueue job now →
      job.payload.bytes.length ≤ bounds.maxPayloadBytes)
    (within : PayloadsWithin bounds before.rows) : PayloadsWithin bounds after.rows := by
  cases step with
  | duplicate | full | enqueueEntropy | completedAgain | completeRefused | failRefused
  | releaseRefused | reviveAlive | reviveUnknown | found | foundUnread | missing | depth =>
      exact within
  | @created job _ now =>
      intro row member
      rcases Multiset.mem_cons.mp member with rfl | later
      · exact fits job now rfl
      · exact within row later
  | idle _ reclaimed | claimEntropy _ reclaimed | claimUncountable _ reclaimed
  | claimDropped _ reclaimed =>
      exact reclaimed.forall_rows (fun _ _ one => one) within
  | claimed _ reclaimed | claimedUnread _ reclaimed | claimPanicked _ reclaimed =>
      have still := reclaimed.forall_rows (fun _ _ one => one) within
      exact forall_exchange still fun one => one
  | completed _ split | buried _ _ split | rescheduled _ _ split | released _ split
  | revived _ split =>
      rw [split] at within
      exact forall_exchange within fun one => one

/-- **A comparable call of the SQL store is one of a table without limits.** -/
theorem JobStep.unlimited {engine : SqlEngine} {collates : engine.Collates} {op : JobOp}
    {answer : JobAnswer}
    (step : JobStep bounds entropy (SqlxJobStore.limits collates bounds) before (op, answer) after)
    (comparable : Comparable engine bounds before.rows op)
    (within : PayloadsWithin bounds before.rows) :
    JobStep bounds entropy .none before (op, answer) after := by
  have depth : ∀ {job : NewJob} {now : Instant}, op = .enqueue job now →
      depthIn ((SqlxJobStore.limits collates bounds).inQueue job.queue) before.rows =
        depthIn (RowLimits.none.inQueue job.queue) before.rows := by
    rintro job now rfl
    exact depthIn_congr (comparable.inQueue collates rfl)
  have free : ∀ {job : NewJob}, (SqlxJobStore.limits collates bounds).KeyFree before.rows job →
      RowLimits.none.KeyFree before.rows job := fun unheld => RowLimits.none_keyFree.mpr
    fun key asked row member holds => unheld key asked row member (.of_holdsKey holds)
  -- The leases a claim takes back, and the job it then finds, are those of its own queue.
  have claims : ∀ {queue : QueueName} {now : Instant} {lease : Nat} {rows : Multiset Row},
      op = .claim queue now lease →
      Reclaimed ((SqlxJobStore.limits collates bounds).inQueue queue) now before.rows rows →
      Reclaimed (RowLimits.none.inQueue queue) now before.rows rows ∧
        ∀ row ∈ rows, (SqlxJobStore.limits collates bounds).inQueue queue row.job.queue =
          RowLimits.none.inQueue queue row.job.queue := by
    rintro queue now lease rows rfl reclaimed
    have alike := comparable.inQueue collates rfl
    exact ⟨reclaimed.congr alike, reclaimed.forall_rows (fun _ _ one => one) alike⟩
  cases step with
  | @duplicate job row key now asked member holds =>
      obtain ⟨sameQueue, held, has, sameKey⟩ := holds
      have queue := comparable.queues _ rfl row member sameQueue
      obtain rfl := comparable.keys job now rfl key asked row member queue held has sameKey
      exact .duplicate now asked member (.of_holdsKey ⟨queue, has⟩)
  | full now unheld full => exact .full now (free unheld) (depth rfl ▸ full)
  | enqueueEntropy now unheld room failed =>
      exact .enqueueEntropy now (free unheld) (depth rfl ▸ room) failed
  | created now unheld room given => exact .created now (free unheld) (depth rfl ▸ room) given
  | idle lease reclaimed nothing =>
      obtain ⟨own, alike⟩ := claims rfl reclaimed
      refine .idle lease own fun row member => ?_
      have idle := nothing row member
      simp only [Row.runnableIn] at idle ⊢
      rwa [← alike row member]
  | claimEntropy lease reclaimed first failed =>
      obtain ⟨own, alike⟩ := claims rfl reclaimed
      exact .claimEntropy lease own (first.congr alike) failed
  | claimed lease reclaimed first given _ _ fits =>
      obtain ⟨own, alike⟩ := claims rfl reclaimed
      exact .claimed lease own (first.congr alike) given not_false not_false fits
  | claimedUnread _ reclaimed _ _ _ unreadable =>
      exact (unreadable (reclaimed.forall_rows (fun _ _ one => one) within _
        (Multiset.mem_cons_self _ _))).elim
  | claimUncountable _ reclaimed _ _ uncountable =>
      have below := reclaimed.forall_rows (fun _ _ one => one) (comparable.counters _ _ _ rfl) _
        (Multiset.mem_cons_self _ _)
      have beyond : i32Max < _ + 1 := uncountable
      omega
  | claimPanicked _ _ _ _ _ past | claimDropped _ _ _ _ _ past =>
      exact (not_lt_of_ge comparable.lasts past).elim
  | completed now split held leased => exact .completed now split held leased
  | completedAgain now member held done => exact .completedAgain now member held done
  | completeRefused now nothing => exact .completeRefused now nothing
  | buried nextRunAt now split held leased spent =>
      exact .buried nextRunAt now split held leased spent
  | rescheduled nextRunAt now split held leased spare =>
      exact .rescheduled nextRunAt now split held leased spare
  | failRefused failure nextRunAt now nothing => exact .failRefused failure nextRunAt now nothing
  | released now split held leased => exact .released now split held leased
  | releaseRefused now nothing => exact .releaseRefused now nothing
  | revived now split dead => exact .revived now split dead
  | reviveAlive now member alive => exact .reviveAlive now member alive
  | reviveUnknown now nothing => exact .reviveUnknown now nothing
  | found member => exact .found member not_false
  | foundUnread member unreadable => exact (unreadable (within _ member)).elim
  | missing nothing => exact .missing nothing
  | depth queue =>
      rw [depthIn_congr (comparable.inQueue collates rfl)]
      exact .depth before queue

/-- Two sound stores that stand for the same table, all of whose payloads fit. -/
structure Alike (bounds : JobBounds) (entropy : Entropy) (store : MemoryJobStore)
    (other : SqlxJobStore) : Prop where
  memory : store.Sound entropy
  sql : other.Sound entropy
  same : store.jobs = other.jobs
  payloads : PayloadsWithin bounds store.table.rows

/-- **Comparable calls are answered alike** and leave the stores alike. -/
theorem stores_answer_alike {engine : SqlEngine} (collates : engine.Collates) (bounds : JobBounds)
    {entropy : Entropy} (fresh : entropy.Fresh) :
    TransitionSystem.Agreement
      ((memorySystem bounds entropy).restrict fun store label =>
        Comparable engine bounds store.table.rows label.1)
      (sqlSystem engine bounds entropy) (Alike bounds entropy) := by
  rintro store other op first second after next ⟨memory, sql, same, payloads⟩ ⟨left, comparable⟩
    right
  obtain ⟨still, one⟩ := (memory_refines bounds fresh).step _ _ _ memory left
  obtain ⟨sound, two⟩ := (sql_refines collates bounds fresh).step _ _ _ sql right
  rw [← same] at two
  obtain ⟨answers, tables⟩ := JobStep.determined memory.jobs comparable.batch one
    (two.unlimited comparable payloads)
  exact ⟨answers, still, sound, tables, one.payloads_within comparable.payload payloads⟩

/-- The receipt's job under a key. -/
def NewJob.keyed (key : IdempotencyKey) : NewJob :=
  { NewJob.receipt with idempotencyKey := some key }

end Renvor
