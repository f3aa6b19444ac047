import Renvor.Jobs.MemoryInvariant

/-! # What the in-memory store's indexes say

The ready index and the key map are read off the rows at every reachable store,
and a claim hands out the first entry of the index that is runnable once a
batch of expired leases is back. A completed job keeps its token, so the token
tells leased and completed jobs from the others, not the leased ones alone.

A claim writes the token before it works out when the lease ends, and the sum
may overflow. Where no claim's does, every token comes with an expiry; a claim
that panics leaves a leased job without one
(`Renvor.panicked_claim_leaves_no_expiry`).
-/

namespace Renvor

open Foundation

/-- Both indexes and the leases agree with the jobs' states. -/
structure IndexesAgree (store : MemoryJobStore) : Prop where
  /-- A ready job has one entry in the index, under its run time and its
  identifier. -/
  ready : ∀ row ∈ store.table.rows, row.job.state = .ready →
    ∃! entry, entry ∈ store.table.ready ∧ entry.2 = row.job.id ∧
      entry.1 = readyKey row.job.runAt row.job.id
  /-- Every entry of the index is a ready job's. -/
  entry : ∀ entry ∈ store.table.ready, ∃ row ∈ store.table.rows, row.job.state = .ready ∧
    entry = (readyKey row.job.runAt row.job.id, row.job.id)
  /-- A job that is not ready has no entry. -/
  unready : ∀ row ∈ store.table.rows, row.job.state ≠ .ready →
    ∀ entry ∈ store.table.ready, entry.2 ≠ row.job.id
  /-- A token is held by the leased and the completed jobs, and the others hold
  neither a token nor an expiry. -/
  lease : ∀ row ∈ store.table.rows,
    (row.lease.isSome = true ↔ row.job.state = .leased ∨ row.job.state = .completed) ∧
    (row.job.state = .ready ∨ row.job.state = .dead →
      row.lease = none ∧ row.leaseExpiresAt = none)
  /-- An entry of the key map names one stored job, which holds the key. -/
  keys : ∀ queue key id, store.table.keys (queue, key) = some id →
    ∃! row, row ∈ store.table.rows ∧ row.job.id = id ∧ row.HoldsKey queue key
  /-- Every stored job with a key is named by the key map. -/
  named : ∀ row ∈ store.table.rows, ∀ key, row.job.idempotencyKey = some key →
    store.table.keys (row.job.queue, key) = some row.job.id

/-- A token with an expiry is held by the leased and the completed jobs. -/
def LeasesDated (rows : Multiset Row) : Prop :=
  ∀ row ∈ rows, row.lease.isSome = true ∧ row.leaseExpiresAt.isSome = true ↔
    row.job.state = .leased ∨ row.job.state = .completed

/-- What a claim answers, over the rows with a batch of expired leases taken
back. -/
inductive ClaimAnswer (queue : QueueName) (now : Instant) (lease : Nat) (rows : Multiset Row) :
    JobAnswer → Prop
  | nothing (idle : ∀ row ∈ rows, row.runnable queue now = false) :
      ClaimAnswer queue now lease rows (.claimed (.ok none))
  | handed {row : Row} (token : LeaseToken) (member : row ∈ rows)
      (runnable : row.runnable queue now = true)
      (least : ∀ other ∈ rows, other.runnable queue now = true →
        readyKey row.job.runAt row.job.id ≤ readyKey other.job.runAt other.job.id)
      (lasts : now + lease ≤ systemTimeMax) :
      ClaimAnswer queue now lease rows
        (.claimed (.ok (some ⟨(row.claim token now lease).job, token, now + lease⟩)))
  | entropy {row : Row} (member : row ∈ rows) (runnable : row.runnable queue now = true) :
      ClaimAnswer queue now lease rows (.claimed (.error .entropyUnavailable))
  | panicked {row : Row} (member : row ∈ rows) (runnable : row.runnable queue now = true)
      (past : systemTimeMax < now + lease) : ClaimAnswer queue now lease rows .panicked

/-- A claim hands out the least runnable job, or nothing where there is none. -/
theorem JobStep.claim_answer {bounds : JobBounds} {entropy : Entropy} {before after : JobTable}
    {queue : QueueName} {now : Instant} {lease : Nat} {answer : JobAnswer}
    (step : JobStep bounds entropy .none before (.claim queue now lease, answer) after) :
    ∃ rows, Reclaimed (fun other => decide (other = queue)) now before.rows rows ∧
      ClaimAnswer queue now lease rows answer := by
  cases step with
  | idle lease reclaimed nothing => exact ⟨_, reclaimed, .nothing nothing⟩
  | claimEntropy lease reclaimed first =>
      exact ⟨_, reclaimed, .entropy (Multiset.mem_cons_self _ _) first.runnable⟩
  | claimed lease reclaimed first _ _ _ fits =>
      refine ⟨_, reclaimed, .handed _ (Multiset.mem_cons_self _ _) first.runnable ?_ fits⟩
      intro other member runs
      rcases Multiset.mem_cons.mp member with rfl | later
      · exact le_refl _
      · exact first.least other later runs
  | claimedUnread _ _ _ _ _ unreadable => exact unreadable.elim
  | claimUncountable _ _ _ _ uncountable => exact uncountable.elim
  | claimPanicked lease reclaimed first _ _ past =>
      exact ⟨_, reclaimed, .panicked (Multiset.mem_cons_self _ _) first.runnable past⟩
  | claimDropped _ _ _ _ drops => exact (drops trivial).elim

/-! ## Tokens with an expiry -/

/-- A token comes with an expiry. -/
def Row.Dated (row : Row) : Prop := row.lease.isSome = true → row.leaseExpiresAt.isSome = true

/-- What holds no token holds none without an expiry. -/
private theorem dated_of_unleased {row : Row} (unleased : row.lease = none) : row.Dated :=
  fun held => by simp [unleased] at held

section

variable {bounds : JobBounds} {entropy : Entropy} {limits : RowLimits} {before after : JobTable}
  {label : JobOp × JobAnswer}

/-- **Every transition but a claim that panics gives its token an expiry.** -/
theorem JobStep.dated (step : JobStep bounds entropy limits before label after)
    (lasts : label.1.Lasts) (dated : ∀ row ∈ before.rows, row.Dated) :
    ∀ row ∈ after.rows, row.Dated := by
  cases step with
  | duplicate | full | enqueueEntropy | completedAgain | completeRefused | failRefused
  | releaseRefused | reviveAlive | reviveUnknown | found | foundUnread | missing | depth =>
      exact dated
  | created =>
      intro row member
      rcases Multiset.mem_cons.mp member with rfl | later
      · exact dated_of_unleased rfl
      · exact dated row later
  | idle lease reclaimed | claimEntropy lease reclaimed | claimUncountable lease reclaimed
  | claimDropped lease reclaimed =>
      exact reclaimed.forall_rows (fun _ _ _ => dated_of_unleased rfl) dated
  | claimed lease reclaimed | claimedUnread lease reclaimed =>
      have still := reclaimed.forall_rows (fun _ _ _ => dated_of_unleased rfl) dated
      exact forall_exchange still fun _ _ => rfl
  | claimPanicked _ _ _ _ _ past => exact (not_lt_of_ge lasts past).elim
  | completed now split =>
      rw [split] at dated
      exact forall_exchange dated fun one => one
  | buried nextRunAt now split | rescheduled nextRunAt now split | released now split
  | revived now split =>
      rw [split] at dated
      exact forall_exchange dated fun _ => dated_of_unleased rfl

end

namespace MemoryJobStore

variable {bounds : JobBounds} {entropy : Entropy} {store : MemoryJobStore}

/-- In a sound store the indexes agree with the jobs. -/
theorem Sound.agree (sound : store.Sound entropy) : IndexesAgree store := by
  obtain ⟨consistent, jobs⟩ := sound
  constructor
  · intro row member ready
    refine ⟨(readyKey row.job.runAt row.job.id, row.job.id), ⟨?_, rfl, rfl⟩, ?_⟩
    · exact (consistent.indexed _ _).mpr ⟨row, member, ready, rfl, rfl⟩
    · rintro ⟨key, id⟩ ⟨_, rfl, rfl⟩
      rfl
  · rintro ⟨key, id⟩ listed
    obtain ⟨row, member, ready, rfl, rfl⟩ := (consistent.indexed key id).mp listed
    exact ⟨row, member, ready, rfl⟩
  · exact fun row member state entry listed => consistent.unready member state listed
  · intro row member
    have shaped := jobs.shaped row member
    refine ⟨shaped.lease, ?_⟩
    simp only [Row.Shaped] at shaped
    cases state : row.job.state <;> simp only [state] at shaped <;> simp [shaped]
  · intro queue key id named
    obtain ⟨row, member, rfl, holds⟩ := (consistent.keyed queue key id).mp named
    refine ⟨row, ⟨member, rfl, holds⟩, ?_⟩
    rintro other ⟨among, same, _⟩
    exact eq_of_key consistent.ids among member same
  · intro row member key holds
    exact (consistent.keyed _ _ _).mpr ⟨row, member, rfl, rfl, holds⟩

/-- An entry of the key map stays as the rows persist. -/
theorem Sound.keys_persist (sound : store.Sound entropy) {later : MemoryJobStore}
    (still : later.Sound entropy) (persists : Persists store.table.rows later.table.rows)
    {queue : QueueName} {key : IdempotencyKey} {id : JobId}
    (named : store.table.keys (queue, key) = some id) :
    later.table.keys (queue, key) = some id := by
  obtain ⟨row, member, rfl, inQueue, holds⟩ := (sound.consistent.keyed queue key id).mp named
  obtain ⟨last, among, same⟩ := persists row member
  exact (still.consistent.keyed _ _ _).mpr
    ⟨last, among, same.id, same.queue.trans inQueue, same.key.trans holds⟩

end MemoryJobStore

/-- **A claim that panics leaves a leased job with a token and no expiry**, which
no later claim takes back. -/
theorem panicked_claim_leaves_no_expiry (bounds : JobBounds) {entropy : Entropy}
    (fresh : entropy.Fresh) {store after : MemoryJobStore} {queue : QueueName} {now : Instant}
    {lease : Nat} (reachable : (memorySystem bounds entropy).Reachable store)
    (step : (memorySystem bounds entropy).Step store (.claim queue now lease, .panicked) after) :
    ∃ row ∈ after.table.rows, row.job.state = .leased ∧ row.lease.isSome = true ∧
      row.leaseExpiresAt = none ∧ ∀ later, row.expired queue later = false := by
  have refines := memory_refines bounds fresh
  have sound := (refines.reachable reachable).1.jobs
  have taken := refines.step_reachable reachable step
  change ∃ row ∈ after.jobs.rows, _
  generalize after.jobs = table at taken ⊢
  cases taken with
  | @claimPanicked _ _ row rest token _ reclaimed first =>
      have ready := (Row.ready_of_runnable first.runnable).1
      have shaped := (sound.reclaimed reclaimed).shaped row (Multiset.mem_cons_self row rest)
      simp only [Row.Shaped, ready] at shaped
      refine ⟨_, Multiset.mem_cons_self _ rest, rfl, rfl, shaped.2.1, fun later => ?_⟩
      simp [Row.expiredIn, Row.overrun, shaped.2.1]
  | claimDropped _ _ _ _ drops => exact (drops trivial).elim

end Renvor
