import Renvor.Foundation.TransitionSystem
import Renvor.Jobs.Job
import Mathlib.Data.Multiset.Count
import Mathlib.Data.Multiset.MapFold

/-! # The job table

What a job store is for, over a multiset of rows: each call of the port is one
transition, whatever the order the rows are scanned in and wherever the indexes
are kept. Identifiers and tokens are the draws of an entropy source. Where stores
differ (which names they take for one, which rows they cannot answer for, what a
panic leaves behind), the table has a parameter.

A claim first takes back a batch of expired leases. Whatever the exchange of
one expired row keeps, taking back the batch keeps
(`Renvor.Reclaimed.preserve`). A sound table answers each call in one way
(`Renvor.JobStep.determined`).
-/

namespace Renvor

/-- The stored rows, and how often entropy was drawn. -/
structure JobTable where
  rows : Multiset Row
  drawn : Nat

/-- How many jobs are ready or leased, given the queues taken for one. -/
def depthIn (inQueue : QueueName → Bool) (rows : Multiset Row) : Nat :=
  rows.countP fun row => row.countedIn inQueue = true

/-- How many jobs of a queue are ready or leased. -/
abbrev queueDepth (rows : Multiset Row) (queue : QueueName) : Nat :=
  depthIn (fun other => decide (other = queue)) rows

/-- The depth of rows in a list, which a statement counts. -/
theorem depthIn_coe (inQueue : QueueName → Bool) (rows : List Row) :
    (rows.filter (Row.countedIn inQueue)).length = depthIn inQueue rows := by
  simp [depthIn, List.countP_eq_length_filter]

/-- One batch of expired leases is taken back: all of them, or as many as a
batch holds. -/
def Reclaimed (inQueue : QueueName → Bool) (now : Instant) (before after : Multiset Row) : Prop :=
  ∃ batch rest : Multiset Row, before = batch + rest ∧ after = batch.map (Row.reclaim now) + rest ∧
    (∀ row ∈ batch, row.expiredIn inQueue now = true) ∧
    batch.card = min reclaimBatch (before.countP fun row => row.expiredIn inQueue now = true)

/-- Whether a job holds a queue's idempotency key. -/
def Row.HoldsKey (queue : QueueName) (key : IdempotencyKey) (row : Row) : Prop :=
  row.job.queue = queue ∧ row.job.idempotencyKey = some key

/-- The job a claim hands out: runnable, and first in claim order. -/
structure Row.First (inQueue : QueueName → Bool) (now : Instant) (row : Row)
    (rest : Multiset Row) : Prop where
  runnable : row.runnableIn inQueue now = true
  least : ∀ other ∈ rest, other.runnableIn inQueue now = true →
    toLex (row.job.runAt, row.job.id) ≤ toLex (other.job.runAt, other.job.id)

/-- How a store falls short of the plain table. -/
structure RowLimits where
  /-- The row does not read back. -/
  Unreadable : Row → Prop
  /-- The row's attempts are at the end of their column. -/
  Uncountable : Row → Prop
  /-- The store takes two queue names for one. -/
  sameQueue : QueueName → QueueName → Bool
  /-- The store takes two idempotency keys for one. -/
  sameKey : IdempotencyKey → IdempotencyKey → Bool
  /-- What a claim has written when it panics stays. -/
  Keeps : Prop
  queue_refl : ∀ queue, sameQueue queue queue = true
  key_refl : ∀ key, sameKey key key = true

namespace RowLimits

/-- Every row reads back and counts, names are compared exactly, and nothing
undoes what a claim has written. -/
def none : RowLimits where
  Unreadable _ := False
  Uncountable _ := False
  sameQueue left right := decide (left = right)
  sameKey left right := decide (left = right)
  Keeps := True
  queue_refl _ := decide_eq_true rfl
  key_refl _ := decide_eq_true rfl

variable (limits : RowLimits)

/-- The queues a store takes for this one. -/
abbrev inQueue (queue : QueueName) : QueueName → Bool := fun other => limits.sameQueue other queue

/-- Whether a store finds that a job holds a queue's idempotency key. -/
def Holds (queue : QueueName) (key : IdempotencyKey) (row : Row) : Prop :=
  limits.sameQueue row.job.queue queue = true ∧
    ∃ held, row.job.idempotencyKey = some held ∧ limits.sameKey held key = true

/-- The store finds no job that holds the key of a new one. -/
def KeyFree (rows : Multiset Row) (job : NewJob) : Prop :=
  ∀ key, job.idempotencyKey = some key → ∀ row ∈ rows, ¬ limits.Holds job.queue key row

variable {limits}

/-- A row that holds the very key holds it for every store. -/
theorem Holds.of_holdsKey {queue : QueueName} {key : IdempotencyKey} {row : Row}
    (holds : row.HoldsKey queue key) : limits.Holds queue key row := by
  obtain ⟨rfl, held⟩ := holds
  exact ⟨limits.queue_refl _, key, held, limits.key_refl key⟩

/-- Without limits a row holds a key exactly where it is the very key. -/
theorem none_holds {queue : QueueName} {key : IdempotencyKey} {row : Row} :
    none.Holds queue key row ↔ row.HoldsKey queue key := by
  simp [Holds, none, Row.HoldsKey]

/-- Without limits a key is free exactly where no row holds the very key. -/
theorem none_keyFree {rows : Multiset Row} {job : NewJob} : none.KeyFree rows job ↔
    ∀ key, job.idempotencyKey = some key → ∀ row ∈ rows, ¬ row.HoldsKey job.queue key := by
  simp only [KeyFree, none_holds]

end RowLimits

/-- The transitions of a job store. -/
inductive JobStep (bounds : JobBounds) (entropy : Entropy) (limits : RowLimits) :
    JobTable → JobOp × JobAnswer → JobTable → Prop
  | duplicate {table : JobTable} {job : NewJob} {row : Row} {key : IdempotencyKey} (now : Instant)
      (asked : job.idempotencyKey = some key) (member : row ∈ table.rows)
      (holds : limits.Holds job.queue key row) :
      JobStep bounds entropy limits table
        (.enqueue job now, .enqueued (.ok (.duplicate row.job.id))) table
  | full {table : JobTable} {job : NewJob} (now : Instant) (free : limits.KeyFree table.rows job)
      (full : bounds.maxQueueDepth ≤ depthIn (limits.inQueue job.queue) table.rows) :
      JobStep bounds entropy limits table (.enqueue job now, .enqueued (.error .queueFull)) table
  | enqueueEntropy {table : JobTable} {job : NewJob} (now : Instant)
      (free : limits.KeyFree table.rows job)
      (room : depthIn (limits.inQueue job.queue) table.rows < bounds.maxQueueDepth)
      (failed : entropy table.drawn = none) :
      JobStep bounds entropy limits table
        (.enqueue job now, .enqueued (.error .entropyUnavailable)) ⟨table.rows, table.drawn + 1⟩
  | created {table : JobTable} {job : NewJob} {id : JobId} (now : Instant)
      (free : limits.KeyFree table.rows job)
      (room : depthIn (limits.inQueue job.queue) table.rows < bounds.maxQueueDepth)
      (given : entropy table.drawn = some id) :
      JobStep bounds entropy limits table (.enqueue job now, .enqueued (.ok (.created id)))
        ⟨Row.enqueued id job now ::ₘ table.rows, table.drawn + 1⟩
  | idle {table : JobTable} {queue : QueueName} {now : Instant} {rows : Multiset Row} (lease : Nat)
      (reclaimed : Reclaimed (limits.inQueue queue) now table.rows rows)
      (nothing : ∀ row ∈ rows, row.runnableIn (limits.inQueue queue) now = false) :
      JobStep bounds entropy limits table
        (.claim queue now lease, .claimed (.ok none)) ⟨rows, table.drawn⟩
  | claimEntropy {table : JobTable} {queue : QueueName} {now : Instant} {row : Row}
      {rest : Multiset Row} (lease : Nat)
      (reclaimed : Reclaimed (limits.inQueue queue) now table.rows (row ::ₘ rest))
      (first : row.First (limits.inQueue queue) now rest)
      (failed : entropy table.drawn = none) :
      JobStep bounds entropy limits table
        (.claim queue now lease, .claimed (.error .entropyUnavailable))
        ⟨row ::ₘ rest, table.drawn + 1⟩
  | claimed {table : JobTable} {queue : QueueName} {now : Instant} {row : Row}
      {rest : Multiset Row} {token : LeaseToken} (lease : Nat)
      (reclaimed : Reclaimed (limits.inQueue queue) now table.rows (row ::ₘ rest))
      (first : row.First (limits.inQueue queue) now rest)
      (given : entropy table.drawn = some token)
      (countable : ¬ limits.Uncountable row) (readable : ¬ limits.Unreadable row)
      (fits : now + lease ≤ systemTimeMax) :
      JobStep bounds entropy limits table
        (.claim queue now lease,
          .claimed (.ok (some ⟨(row.claim token now lease).job, token, now + lease⟩)))
        ⟨row.claim token now lease ::ₘ rest, table.drawn + 1⟩
  /-- The lease is taken and its answer lost: the row does not read back. -/
  | claimedUnread {table : JobTable} {queue : QueueName} {now : Instant} {row : Row}
      {rest : Multiset Row} {token : LeaseToken} (lease : Nat)
      (reclaimed : Reclaimed (limits.inQueue queue) now table.rows (row ::ₘ rest))
      (first : row.First (limits.inQueue queue) now rest)
      (given : entropy table.drawn = some token)
      (countable : ¬ limits.Uncountable row) (unreadable : limits.Unreadable row)
      (fits : now + lease ≤ systemTimeMax) :
      JobStep bounds entropy limits table
        (.claim queue now lease, .claimed (.error (.refused .payloadTooLarge)))
        ⟨row.claim token now lease ::ₘ rest, table.drawn + 1⟩
  | claimUncountable {table : JobTable} {queue : QueueName} {now : Instant} {row : Row}
      {rest : Multiset Row} {token : LeaseToken} (lease : Nat)
      (reclaimed : Reclaimed (limits.inQueue queue) now table.rows (row ::ₘ rest))
      (first : row.First (limits.inQueue queue) now rest)
      (given : entropy table.drawn = some token)
      (uncountable : limits.Uncountable row) (fits : now + lease ≤ systemTimeMax) :
      JobStep bounds entropy limits table
        (.claim queue now lease, .claimed (.error .unavailable)) ⟨row ::ₘ rest, table.drawn + 1⟩
  /-- The end of the lease overflows, and what the claim has written stays. -/
  | claimPanicked {table : JobTable} {queue : QueueName} {now : Instant} {row : Row}
      {rest : Multiset Row} {token : LeaseToken} (lease : Nat)
      (reclaimed : Reclaimed (limits.inQueue queue) now table.rows (row ::ₘ rest))
      (first : row.First (limits.inQueue queue) now rest)
      (given : entropy table.drawn = some token) (keeps : limits.Keeps)
      (past : systemTimeMax < now + lease) :
      JobStep bounds entropy limits table (.claim queue now lease, .panicked)
        ⟨row.overrun token now ::ₘ rest, table.drawn + 1⟩
  /-- The end of the lease overflows, and what the claim has written is lost. -/
  | claimDropped {table : JobTable} {queue : QueueName} {now : Instant} {row : Row}
      {rest : Multiset Row} {token : LeaseToken} (lease : Nat)
      (reclaimed : Reclaimed (limits.inQueue queue) now table.rows (row ::ₘ rest))
      (first : row.First (limits.inQueue queue) now rest)
      (given : entropy table.drawn = some token) (drops : ¬ limits.Keeps)
      (past : systemTimeMax < now + lease) :
      JobStep bounds entropy limits table (.claim queue now lease, .panicked)
        ⟨row ::ₘ rest, table.drawn + 1⟩
  | completed {table : JobTable} {row : Row} {rest : Multiset Row} {token : LeaseToken}
      (now : Instant) (split : table.rows = row ::ₘ rest) (held : row.lease = some token)
      (leased : row.job.state = .leased) :
      JobStep bounds entropy limits table (.complete token now, .completed (.ok .completed))
        ⟨row.complete now ::ₘ rest, table.drawn⟩
  | completedAgain {table : JobTable} {row : Row} {token : LeaseToken} (now : Instant)
      (member : row ∈ table.rows) (held : row.lease = some token)
      (done : row.job.state = .completed) :
      JobStep bounds entropy limits table
        (.complete token now, .completed (.ok .alreadyCompleted)) table
  | completeRefused {table : JobTable} {token : LeaseToken} (now : Instant)
      (nothing : ∀ row ∈ table.rows, row.lease = some token →
        row.job.state ≠ .leased ∧ row.job.state ≠ .completed) :
      JobStep bounds entropy limits table
        (.complete token now, .completed (.error .leaseNotHeld)) table
  | buried {table : JobTable} {row : Row} {rest : Multiset Row} {token : LeaseToken}
      {failure : FailureKind} (nextRunAt now : Instant) (split : table.rows = row ::ₘ rest)
      (held : row.lease = some token) (leased : row.job.state = .leased)
      (spent : row.spent failure = true) :
      JobStep bounds entropy limits table
        (.fail token failure nextRunAt now, .failed (.ok (.deadLettered row.job.attempts)))
        ⟨row.bury failure now ::ₘ rest, table.drawn⟩
  | rescheduled {table : JobTable} {row : Row} {rest : Multiset Row} {token : LeaseToken}
      {failure : FailureKind} (nextRunAt now : Instant) (split : table.rows = row ::ₘ rest)
      (held : row.lease = some token) (leased : row.job.state = .leased)
      (spare : row.spent failure = false) :
      JobStep bounds entropy limits table
        (.fail token failure nextRunAt now,
          .failed (.ok (.rescheduled nextRunAt row.job.attempts)))
        ⟨row.reschedule failure nextRunAt now ::ₘ rest, table.drawn⟩
  | failRefused {table : JobTable} {token : LeaseToken} (failure : FailureKind)
      (nextRunAt now : Instant)
      (nothing : ∀ row ∈ table.rows, row.lease = some token → row.job.state ≠ .leased) :
      JobStep bounds entropy limits table
        (.fail token failure nextRunAt now, .failed (.error .leaseNotHeld)) table
  | released {table : JobTable} {row : Row} {rest : Multiset Row} {token : LeaseToken}
      (now : Instant) (split : table.rows = row ::ₘ rest) (held : row.lease = some token)
      (leased : row.job.state = .leased) :
      JobStep bounds entropy limits table (.release token now, .released (.ok ()))
        ⟨row.release now ::ₘ rest, table.drawn⟩
  | releaseRefused {table : JobTable} {token : LeaseToken} (now : Instant)
      (nothing : ∀ row ∈ table.rows, row.lease = some token → row.job.state ≠ .leased) :
      JobStep bounds entropy limits table
        (.release token now, .released (.error .leaseNotHeld)) table
  | revived {table : JobTable} {row : Row} {rest : Multiset Row} (now : Instant)
      (split : table.rows = row ::ₘ rest) (dead : row.job.state = .dead) :
      JobStep bounds entropy limits table (.revive row.job.id now, .revived (.ok true))
        ⟨row.revive now ::ₘ rest, table.drawn⟩
  | reviveAlive {table : JobTable} {row : Row} (now : Instant) (member : row ∈ table.rows)
      (alive : row.job.state ≠ .dead) :
      JobStep bounds entropy limits table (.revive row.job.id now, .revived (.ok false)) table
  | reviveUnknown {table : JobTable} {id : JobId} (now : Instant)
      (nothing : ∀ row ∈ table.rows, row.job.id ≠ id) :
      JobStep bounds entropy limits table (.revive id now, .revived (.error .notFound)) table
  | found {table : JobTable} {row : Row} (member : row ∈ table.rows)
      (readable : ¬ limits.Unreadable row) :
      JobStep bounds entropy limits table (.read row.job.id, .found (.ok (some row.job))) table
  | foundUnread {table : JobTable} {row : Row} (member : row ∈ table.rows)
      (unreadable : limits.Unreadable row) :
      JobStep bounds entropy limits table
        (.read row.job.id, .found (.error (.refused .payloadTooLarge))) table
  | missing {table : JobTable} {id : JobId} (nothing : ∀ row ∈ table.rows, row.job.id ≠ id) :
      JobStep bounds entropy limits table (.read id, .found (.ok none)) table
  | depth (table : JobTable) (queue : QueueName) :
      JobStep bounds entropy limits table
        (.depth queue, .counted (.ok (depthIn (limits.inQueue queue) table.rows))) table

/-- A job store from the empty table on. -/
def jobSystem (bounds : JobBounds) (entropy : Entropy) (limits : RowLimits) :
    Foundation.TransitionSystem JobTable (JobOp × JobAnswer) where
  Initial table := table = ⟨0, 0⟩
  Step := JobStep bounds entropy limits

/-! ## Queues taken for one

What a call does depends on which of the stored jobs' queues it takes for its
own, and on nothing else about the names. -/

section

variable {inQueue other : QueueName → Bool} {now : Instant}

/-- The depth depends on which rows count for the queue, and on nothing else of the comparison. -/
theorem depthIn_congr {rows : Multiset Row}
    (alike : ∀ row ∈ rows, inQueue row.job.queue = other row.job.queue) :
    depthIn inQueue rows = depthIn other rows :=
  Multiset.countP_congr rfl fun row member => by simp only [Row.countedIn, alike row member]

/-- What is reclaimed depends on which rows count for the queue. -/
theorem Reclaimed.congr {before after : Multiset Row} (reclaimed : Reclaimed inQueue now before after)
    (alike : ∀ row ∈ before, inQueue row.job.queue = other row.job.queue) :
    Reclaimed other now before after := by
  have expired : ∀ row ∈ before, row.expiredIn inQueue now = row.expiredIn other now :=
    fun row member => by simp only [Row.expiredIn, alike row member]
  obtain ⟨batch, rest, rfl, rfl, chosen, card⟩ := reclaimed
  refine ⟨batch, rest, rfl, rfl, fun row member => ?_, card.trans ?_⟩
  · rw [← expired row (Multiset.mem_add.mpr (.inl member))]
    exact chosen row member
  · congr 1
    exact Multiset.countP_congr rfl fun row member => by rw [expired row member]

/-- Which job is first depends on which rows count for the queue. -/
theorem Row.First.congr {row : Row} {rest : Multiset Row} (first : row.First inQueue now rest)
    (alike : ∀ one ∈ row ::ₘ rest, inQueue one.job.queue = other one.job.queue) :
    row.First other now rest := by
  have runnable : ∀ one ∈ row ::ₘ rest, one.runnableIn inQueue now = one.runnableIn other now :=
    fun one member => by simp only [Row.runnableIn, alike one member]
  refine ⟨runnable row (Multiset.mem_cons_self row rest) ▸ first.runnable, ?_⟩
  intro one member runs
  exact first.least one member (runnable one (Multiset.mem_cons_of_mem member) ▸ runs)

end

/-! ## Rows exchanged -/

/-- **What the exchange of one expired row keeps, a reclaim keeps.** -/
theorem Reclaimed.preserve {inQueue : QueueName → Bool} {now : Instant}
    {before after : Multiset Row} (reclaimed : Reclaimed inQueue now before after)
    (kept : Multiset Row → Prop)
    (exchange : ∀ row rest, row.expiredIn inQueue now = true → kept (row ::ₘ rest) →
      kept (row.reclaim now ::ₘ rest))
    (holds : kept before) : kept after := by
  obtain ⟨batch, rest, rfl, rfl, expired, _⟩ := reclaimed
  clear * - exchange holds expired
  induction batch using Multiset.induction_on generalizing rest with
  | empty => simpa using holds
  | cons row batch ih =>
      rw [Multiset.cons_add] at holds
      have first := exchange row (batch + rest) (expired row (Multiset.mem_cons_self row batch)) holds
      rw [← Multiset.add_cons] at first
      have later := ih (row.reclaim now ::ₘ rest) first
        fun other member => expired other (Multiset.mem_cons_of_mem member)
      rw [Multiset.map_cons, Multiset.cons_add]
      rwa [Multiset.add_cons] at later

/-- What holds of all rows holds of all after an exchange. -/
theorem forall_exchange {kept : Row → Prop} {row after : Row} {rest : Multiset Row}
    (every : ∀ other ∈ row ::ₘ rest, kept other) (one : kept row → kept after) :
    ∀ other ∈ after ::ₘ rest, kept other := by
  intro other member
  rcases Multiset.mem_cons.mp member with rfl | later
  · exact one (every row (Multiset.mem_cons_self row rest))
  · exact every other (Multiset.mem_cons_of_mem later)

/-- What holds of all rows still does after reclaiming, where taking a lease back keeps it. -/
theorem Reclaimed.forall_rows {inQueue : QueueName → Bool} {now : Instant}
    {before after : Multiset Row} (reclaimed : Reclaimed inQueue now before after)
    {kept : Row → Prop}
    (one : ∀ row, row.expiredIn inQueue now = true → kept row → kept (row.reclaim now))
    (every : ∀ row ∈ before, kept row) : ∀ row ∈ after, kept row := by
  have exchange : ∀ row rest, row.expiredIn inQueue now = true →
      (∀ other ∈ row ::ₘ rest, kept other) → ∀ other ∈ row.reclaim now ::ₘ rest, kept other :=
    fun row rest expired whole => forall_exchange whole (one row expired)
  exact reclaimed.preserve (fun rows => ∀ row ∈ rows, kept row) exchange every

namespace Row

/-- The lease fields a state goes with. A token comes with its end unless the
claim panicked. -/
def Shaped (row : Row) : Prop :=
  match row.job.state with
  | .ready => row.lease = none ∧ row.leaseExpiresAt = none ∧ row.job.finishedAt = none
  | .leased => row.lease.isSome ∧ row.job.finishedAt = none
  | .completed => row.lease.isSome
  | .dead => row.lease = none ∧ row.leaseExpiresAt = none

end Row

/-- Two rows of one job: what no transition changes. -/
structure Row.SameJob (before after : Row) : Prop where
  id : after.job.id = before.job.id
  queue : after.job.queue = before.job.queue
  key : after.job.idempotencyKey = before.job.idempotencyKey
  maxAttempts : after.job.maxAttempts = before.job.maxAttempts

/-- A row is of its own job. -/
theorem Row.SameJob.rfl {row : Row} : row.SameJob row := ⟨.refl _, .refl _, .refl _, .refl _⟩

/-- Rows of one job are so through any row between them. -/
theorem Row.SameJob.trans {first second third : Row} (left : first.SameJob second)
    (right : second.SameJob third) : first.SameJob third :=
  ⟨right.id.trans left.id, right.queue.trans left.queue, right.key.trans left.key,
    right.maxAttempts.trans left.maxAttempts⟩

namespace JobTable

variable {entropy : Entropy}

/-- Every job once, every token and every key on one job, and nothing held that
was not issued. -/
structure Sound (entropy : Entropy) (table : JobTable) : Prop where
  ids : (table.rows.map fun row => row.job.id).Nodup
  tokens : ∀ row ∈ table.rows, ∀ other ∈ table.rows, ∀ token, row.lease = some token →
    other.lease = some token → row.job.id = other.job.id
  keys : ∀ row ∈ table.rows, ∀ other ∈ table.rows, ∀ key, row.job.idempotencyKey = some key →
    other.HoldsKey row.job.queue key → row.job.id = other.job.id
  issuedIds : ∀ row ∈ table.rows, entropy.Issued table.drawn row.job.id
  issuedTokens : ∀ row ∈ table.rows, ∀ token, row.lease = some token →
    entropy.Issued table.drawn token
  shaped : ∀ row ∈ table.rows, row.Shaped

/-- A job is stored once. -/
theorem Sound.same {table : JobTable} (sound : table.Sound entropy) {row other : Row}
    (member : row ∈ table.rows) (among : other ∈ table.rows)
    (same : row.job.id = other.job.id) : row = other :=
  Multiset.inj_on_of_nodup_map sound.ids row member other among same

/-- A token is held once. -/
theorem Sound.holder {table : JobTable} (sound : table.Sound entropy) {row other : Row}
    (member : row ∈ table.rows) (among : other ∈ table.rows) {token : LeaseToken}
    (held : row.lease = some token) (also : other.lease = some token) : row = other :=
  sound.same member among (sound.tokens row member other among token held also)

/-- A key is held once. -/
theorem Sound.keyHolder {table : JobTable} (sound : table.Sound entropy) {row other : Row}
    (member : row ∈ table.rows) (among : other ∈ table.rows) {queue : QueueName}
    {key : IdempotencyKey} (holds : row.HoldsKey queue key) (also : other.HoldsKey queue key) :
    row = other := by
  obtain ⟨rfl, held⟩ := holds
  exact sound.same member among (sound.keys row member other among key held also)

/-- Exchanging a row for one of the same job, whose lease is the old one or a
new one, keeps soundness. -/
theorem Sound.exchange {row after : Row} {rest : Multiset Row} {drawn more : Nat}
    (sound : Sound entropy ⟨row ::ₘ rest, drawn⟩) (same : row.SameJob after)
    (shaped : after.Shaped)
    (lease : ∀ token, after.lease = some token →
      row.lease = some token ∨ (¬ entropy.Issued drawn token ∧ entropy.Issued more token))
    (grows : drawn ≤ more) : Sound entropy ⟨after ::ₘ rest, more⟩ := by
  have own : row ∈ row ::ₘ rest := Multiset.mem_cons_self row rest
  have others : ∀ other ∈ rest, other ∈ row ::ₘ rest := fun other => Multiset.mem_cons_of_mem
  have meets : ∀ other ∈ rest, ∀ token, after.lease = some token → other.lease = some token →
      after.job.id = other.job.id := by
    intro other member token held also
    rw [same.id]
    rcases lease token held with old | ⟨fresh, _⟩
    · exact sound.tokens row own other (others other member) token old also
    · exact (fresh (sound.issuedTokens other (others other member) token also)).elim
  constructor
  · have ids := sound.ids
    simp only [Multiset.map_cons] at ids ⊢
    rwa [same.id]
  · intro first member second also token held again
    rcases Multiset.mem_cons.mp member with rfl | before
    · rcases Multiset.mem_cons.mp also with rfl | later
      · rfl
      · exact meets second later token held again
    · rcases Multiset.mem_cons.mp also with rfl | later
      · exact (meets first before token again held).symm
      · exact sound.tokens first (others first before) second (others second later) token held again
  · intro first member second also key held holds
    rcases Multiset.mem_cons.mp member with rfl | before
    · rcases Multiset.mem_cons.mp also with rfl | later
      · rfl
      · rw [same.id]
        refine sound.keys row own second (others second later) key (same.key ▸ held) ?_
        exact same.queue ▸ holds
    · rcases Multiset.mem_cons.mp also with rfl | later
      · rw [same.id]
        refine sound.keys first (others first before) row own key held ?_
        exact ⟨same.queue ▸ holds.1, same.key ▸ holds.2⟩
      · exact sound.keys first (others first before) second (others second later) key held holds
  · intro other member
    rcases Multiset.mem_cons.mp member with rfl | later
    · rw [same.id]
      exact (sound.issuedIds row own).mono grows
    · exact (sound.issuedIds other (others other later)).mono grows
  · intro other member token held
    rcases Multiset.mem_cons.mp member with rfl | later
    · rcases lease token held with old | ⟨_, fresh⟩
      · exact (sound.issuedTokens row own token old).mono grows
      · exact fresh
    · exact (sound.issuedTokens other (others other later) token held).mono grows
  · exact forall_exchange sound.shaped fun _ => shaped

/-- Drawing entropy keeps soundness. -/
theorem Sound.drawn {table : JobTable} (sound : table.Sound entropy) {more : Nat}
    (grows : table.drawn ≤ more) : Sound entropy ⟨table.rows, more⟩ where
  ids := sound.ids
  tokens := sound.tokens
  keys := sound.keys
  issuedIds row member := (sound.issuedIds row member).mono grows
  issuedTokens row member token held := (sound.issuedTokens row member token held).mono grows
  shaped := sound.shaped

/-- A new job with a new identifier and a free key keeps soundness. -/
theorem Sound.add (fresh : entropy.Fresh) {table : JobTable} (sound : table.Sound entropy)
    {id : JobId} (given : entropy table.drawn = some id) {limits : RowLimits} {job : NewJob}
    (free : limits.KeyFree table.rows job) (now : Instant) :
    Sound entropy ⟨Row.enqueued id job now ::ₘ table.rows, table.drawn + 1⟩ := by
  have unleased : ∀ token, (Row.enqueued id job now).lease ≠ some token := fun _ held => by
    cases held
  have grows := Nat.le_succ table.drawn
  constructor
  · rw [Multiset.map_cons, Multiset.nodup_cons]
    refine ⟨?_, sound.ids⟩
    intro listed
    obtain ⟨row, member, same⟩ := Multiset.mem_map.mp listed
    have issued := sound.issuedIds row member
    rw [same] at issued
    exact fresh.unissued given issued
  · intro first member second also token held again
    rcases Multiset.mem_cons.mp member with rfl | before
    · exact (unleased token held).elim
    · rcases Multiset.mem_cons.mp also with rfl | later
      · exact (unleased token again).elim
      · exact sound.tokens first before second later token held again
  · intro first member second also key held holds
    rcases Multiset.mem_cons.mp member with rfl | before
    · rcases Multiset.mem_cons.mp also with rfl | later
      · rfl
      · exact (free key held second later (.of_holdsKey holds)).elim
    · rcases Multiset.mem_cons.mp also with rfl | later
      · exact (free key holds.2 first before (.of_holdsKey ⟨holds.1.symm, held⟩)).elim
      · exact sound.keys first before second later key held holds
  · intro row member
    rcases Multiset.mem_cons.mp member with rfl | later
    · exact Entropy.issued_next given
    · exact (sound.issuedIds row later).mono grows
  · intro row member token held
    rcases Multiset.mem_cons.mp member with rfl | later
    · exact (unleased token held).elim
    · exact (sound.issuedTokens row later token held).mono grows
  · intro row member
    rcases Multiset.mem_cons.mp member with rfl | later
    · exact ⟨rfl, rfl, rfl⟩
    · exact sound.shaped row later

end JobTable

/-! ## The shape of a row after each transition -/

namespace Row

variable {row : Row}

/-- An expired row is leased. -/
theorem leased_of_expired {inQueue : QueueName → Bool} {now : Instant}
    (expired : row.expiredIn inQueue now = true) : row.job.state = .leased := by
  simp only [Row.expiredIn, Bool.and_eq_true, decide_eq_true_eq] at expired
  exact expired.1.2

/-- A runnable row is ready. -/
theorem ready_of_runnable {inQueue : QueueName → Bool} {now : Instant}
    (runnable : row.runnableIn inQueue now = true) :
    row.job.state = .ready ∧ inQueue row.job.queue = true ∧ row.job.runAt ≤ now := by
  simp only [Row.runnableIn, Bool.and_eq_true, decide_eq_true_eq] at runnable
  exact ⟨runnable.1.2, runnable.1.1, runnable.2⟩

/-- A row whose lease is taken back has the shape of its new state. -/
theorem shaped_reclaim (shaped : row.Shaped) (leased : row.job.state = .leased) (now : Instant) :
    (row.reclaim now).Shaped := by
  simp only [Shaped, leased] at shaped
  simp only [Shaped, reclaim]
  by_cases last : row.job.attempts ≥ row.job.maxAttempts
  · simp only [if_pos last]
    exact ⟨trivial, trivial⟩
  · simp only [if_neg last]
    exact ⟨trivial, trivial, shaped.2⟩

/-- A row that is claimed has the shape of its new state. -/
theorem shaped_claim (shaped : row.Shaped) (ready : row.job.state = .ready) (token : LeaseToken)
    (now : Instant) (lease : Nat) : (row.claim token now lease).Shaped := by
  simp only [Shaped, ready] at shaped
  exact ⟨rfl, shaped.2.2⟩

/-- A row left by a claim that panicked still has a shape: leased, with a token and no expiry. -/
theorem shaped_overrun (shaped : row.Shaped) (ready : row.job.state = .ready) (token : LeaseToken)
    (now : Instant) : (row.overrun token now).Shaped := by
  simp only [Shaped, ready] at shaped
  exact ⟨rfl, shaped.2.2⟩

/-- A row that is completed has the shape of its new state. -/
theorem shaped_complete (shaped : row.Shaped) (leased : row.job.state = .leased) (now : Instant) :
    (row.complete now).Shaped := by
  simp only [Shaped, leased] at shaped
  exact shaped.1

/-- A row that is buried has the shape of its new state. -/
theorem shaped_bury (failure : FailureKind) (now : Instant) : (row.bury failure now).Shaped :=
  ⟨rfl, rfl⟩

/-- A row that is rescheduled has the shape of its new state. -/
theorem shaped_reschedule (shaped : row.Shaped) (leased : row.job.state = .leased)
    (failure : FailureKind) (nextRunAt now : Instant) :
    (row.reschedule failure nextRunAt now).Shaped := by
  simp only [Shaped, leased] at shaped
  exact ⟨rfl, rfl, shaped.2⟩

/-- A row that is released has the shape of its new state. -/
theorem shaped_release (shaped : row.Shaped) (leased : row.job.state = .leased) (now : Instant) :
    (row.release now).Shaped := by
  simp only [Shaped, leased] at shaped
  exact ⟨rfl, rfl, shaped.2⟩

/-- A row that is revived has the shape of its new state. -/
theorem shaped_revive (now : Instant) : (row.revive now).Shaped := ⟨rfl, rfl, rfl⟩

/-- A leased or completed row holds a token; a ready or dead one holds none. -/
theorem Shaped.lease (shaped : row.Shaped) :
    row.lease.isSome = true ↔ row.job.state = .leased ∨ row.job.state = .completed := by
  simp only [Shaped] at shaped
  cases state : row.job.state <;> simp only [state] at shaped <;> simp [shaped]

end Row

/-- Every job of the first rows is still a job of the second. -/
def Persists (before after : Multiset Row) : Prop :=
  ∀ row ∈ before, ∃ later ∈ after, row.SameJob later

/-- All jobs persist where nothing happens. -/
theorem Persists.refl (rows : Multiset Row) : Persists rows rows :=
  fun row member => ⟨row, member, .rfl⟩

/-- Jobs that persist through each of two steps persist through both. -/
theorem Persists.trans {first second third : Multiset Row} (left : Persists first second)
    (right : Persists second third) : Persists first third := by
  intro row member
  obtain ⟨later, among, same⟩ := left row member
  obtain ⟨last, found, again⟩ := right later among
  exact ⟨last, found, same.trans again⟩

/-- All jobs persist where one row takes the place of another of its job. -/
theorem Persists.exchange {row after : Row} (same : row.SameJob after) (rest : Multiset Row) :
    Persists (row ::ₘ rest) (after ::ₘ rest) := by
  intro other member
  rcases Multiset.mem_cons.mp member with rfl | later
  · exact ⟨after, Multiset.mem_cons_self _ _, same⟩
  · exact ⟨other, Multiset.mem_cons_of_mem later, .rfl⟩

/-- All jobs persist through reclaiming. -/
theorem Reclaimed.persists {inQueue : QueueName → Bool} {now : Instant}
    {before after : Multiset Row} (reclaimed : Reclaimed inQueue now before after) : Persists before after := by
  refine reclaimed.preserve (Persists before) ?_ (.refl before)
  intro row rest _ holds
  refine holds.trans (.exchange ?_ rest)
  exact ⟨rfl, rfl, rfl, rfl⟩

section

variable {bounds : JobBounds} {entropy : Entropy} {limits : RowLimits} {before after : JobTable}
  {label : JobOp × JobAnswer}

/-- **No transition loses a job**, its queue, its key or its attempts limit. -/
theorem JobStep.persists (step : JobStep bounds entropy limits before label after) :
    Persists before.rows after.rows := by
  cases step with
  | duplicate | full | enqueueEntropy | completedAgain | completeRefused | failRefused
  | releaseRefused | reviveAlive | reviveUnknown | found | foundUnread | missing | depth =>
      exact .refl _
  | created => exact fun row member => ⟨row, Multiset.mem_cons_of_mem member, .rfl⟩
  | idle lease reclaimed | claimEntropy lease reclaimed | claimUncountable lease reclaimed
  | claimDropped lease reclaimed =>
      exact reclaimed.persists
  | claimed lease reclaimed | claimedUnread lease reclaimed | claimPanicked lease reclaimed =>
      refine reclaimed.persists.trans (.exchange ?_ _)
      exact ⟨rfl, rfl, rfl, rfl⟩
  | completed now split | buried nextRunAt now split | rescheduled nextRunAt now split
  | released now split | revived now split =>
      rw [split]
      refine .exchange ?_ _
      exact ⟨rfl, rfl, rfl, rfl⟩

/-- No transition takes a draw back. -/
theorem JobStep.drawn_le (step : JobStep bounds entropy limits before label after) :
    before.drawn ≤ after.drawn := by
  cases step with
  | enqueueEntropy | created | claimEntropy | claimed | claimedUnread | claimUncountable
  | claimPanicked | claimDropped =>
      exact Nat.le_succ _
  | _ => exact Nat.le_refl _

end

/-- Every job of a table is a job of any later one. -/
theorem persists_run {bounds : JobBounds} {entropy : Entropy} {limits : RowLimits}
    {first last : JobTable} {labels : List (JobOp × JobAnswer)}
    (run : (jobSystem bounds entropy limits).Run first labels last) :
    Persists first.rows last.rows := by
  induction run with
  | refl => exact .refl _
  | snoc _ step ih => exact ih.trans step.persists

namespace JobTable

variable {bounds : JobBounds} {entropy : Entropy} {limits : RowLimits}

/-- Taking back a batch of expired leases keeps soundness. -/
theorem Sound.reclaimed {table : JobTable} (sound : table.Sound entropy)
    {inQueue : QueueName → Bool} {now : Instant} {rows : Multiset Row}
    (reclaimed : Reclaimed inQueue now table.rows rows) :
    Sound entropy ⟨rows, table.drawn⟩ := by
  refine reclaimed.preserve (fun rows => Sound entropy ⟨rows, table.drawn⟩) ?_ sound
  intro row rest expired before
  have leased := Row.leased_of_expired expired
  have shaped := before.shaped row (Multiset.mem_cons_self row rest)
  exact before.exchange ⟨rfl, rfl, rfl, rfl⟩ (row.shaped_reclaim shaped leased now)
    (by simp [Row.reclaim]) (Nat.le_refl _)

/-- Leasing a runnable row under a new token keeps soundness, whatever else of
the lease is written. -/
theorem Sound.lease (fresh : entropy.Fresh) {row after : Row} {rest : Multiset Row} {drawn : Nat}
    (sound : Sound entropy ⟨row ::ₘ rest, drawn⟩) {inQueue : QueueName → Bool} {now : Instant}
    (runnable : row.runnableIn inQueue now = true) {token : LeaseToken}
    (given : entropy drawn = some token) (same : row.SameJob after)
    (shaped : row.Shaped → row.job.state = .ready → after.Shaped)
    (held : after.lease = some token) : Sound entropy ⟨after ::ₘ rest, drawn + 1⟩ := by
  have ready := (Row.ready_of_runnable runnable).1
  have before := sound.shaped row (Multiset.mem_cons_self row rest)
  refine sound.exchange same (shaped before ready) ?_ (Nat.le_succ drawn)
  intro other also
  cases held.symm.trans also
  exact Or.inr ⟨fresh.unissued given, Entropy.issued_next given⟩

/-- **Soundness is preserved by every transition.** -/
theorem Sound.step (fresh : entropy.Fresh) {before after : JobTable} {label : JobOp × JobAnswer}
    (sound : before.Sound entropy) (step : JobStep bounds entropy limits before label after) :
    after.Sound entropy := by
  have exchange : ∀ {row after : Row} {rest : Multiset Row}, before.rows = row ::ₘ rest →
      row.SameJob after → (row.Shaped → after.Shaped) →
      (∀ token, after.lease = some token → row.lease = some token) →
      Sound entropy ⟨after ::ₘ rest, before.drawn⟩ := by
    intro row after rest split same shaped lease
    have whole : Sound entropy ⟨row ::ₘ rest, before.drawn⟩ := split ▸ sound
    exact whole.exchange same (shaped (whole.shaped row (Multiset.mem_cons_self row rest)))
      (fun token held => Or.inl (lease token held)) (Nat.le_refl _)
  cases step with
  | duplicate | full | completedAgain | completeRefused | failRefused
  | releaseRefused | reviveAlive | reviveUnknown | found | foundUnread | missing | depth =>
      exact sound
  | enqueueEntropy => exact sound.drawn (Nat.le_succ _)
  | created now free room given => exact sound.add fresh given free now
  | idle lease reclaimed => exact sound.reclaimed reclaimed
  | claimEntropy lease reclaimed | claimUncountable lease reclaimed
  | claimDropped lease reclaimed =>
      exact (sound.reclaimed reclaimed).drawn (Nat.le_succ _)
  | claimed lease reclaimed first given | claimedUnread lease reclaimed first given =>
      exact (sound.reclaimed reclaimed).lease fresh first.runnable given ⟨rfl, rfl, rfl, rfl⟩
        (fun shaped ready => Row.shaped_claim shaped ready _ _ lease) rfl
  | claimPanicked lease reclaimed first given =>
      exact (sound.reclaimed reclaimed).lease fresh first.runnable given ⟨rfl, rfl, rfl, rfl⟩
        (fun shaped ready => Row.shaped_overrun shaped ready _ _) rfl
  | completed now split held leased =>
      exact exchange split ⟨rfl, rfl, rfl, rfl⟩
        (fun shaped => Row.shaped_complete shaped leased now) fun token same => same
  | buried nextRunAt now split held leased =>
      exact exchange split ⟨rfl, rfl, rfl, rfl⟩ (fun _ => Row.shaped_bury _ now)
        (by simp [Row.bury])
  | rescheduled nextRunAt now split held leased =>
      exact exchange split ⟨rfl, rfl, rfl, rfl⟩
        (fun shaped => Row.shaped_reschedule shaped leased _ nextRunAt now)
        (by simp [Row.reschedule])
  | released now split held leased =>
      exact exchange split ⟨rfl, rfl, rfl, rfl⟩
        (fun shaped => Row.shaped_release shaped leased now) (by simp [Row.release])
  | revived now split dead =>
      exact exchange split ⟨rfl, rfl, rfl, rfl⟩ (fun _ => Row.shaped_revive now)
        (by simp [Row.revive])

/-- A table without jobs is sound. -/
theorem sound_empty : Sound entropy ⟨0, 0⟩ :=
  ⟨by simp, by simp, by simp, by simp, by simp, by simp⟩

/-- Every table a store reaches is sound. -/
theorem sound_reachable (fresh : entropy.Fresh) {table : JobTable}
    (reachable : (jobSystem bounds entropy limits).Reachable table) : table.Sound entropy :=
  reachable.rec_on (fun _ start => start ▸ sound_empty) fun _ _ _ _ sound step =>
    sound.step fresh step

end JobTable

end Renvor
