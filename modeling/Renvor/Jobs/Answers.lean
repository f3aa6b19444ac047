import Renvor.Jobs.Table

/-! # A sound table answers in one way

Which expired leases a batch takes back is open where there are more than a
batch. Otherwise the answer of a call and the table after it are determined
(`Renvor.JobStep.determined`) where names are compared exactly and every row
reads back and counts, so two stores that refine the table and draw the same
entropy agree.
-/

namespace Renvor

open Foundation

/-- At most one batch of leases has expired, so a claim takes all of them
back. -/
def OneBatch (rows : Multiset Row) : JobOp → Prop
  | .claim queue now _ => (rows.countP fun row => row.expired queue now = true) ≤ reclaimBatch
  | _ => True

/-- Where one batch holds them, every expired lease is taken back. -/
theorem Reclaimed.every {inQueue : QueueName → Bool} {now : Instant}
    {before after : Multiset Row} (reclaimed : Reclaimed inQueue now before after)
    (few : (before.countP fun row => row.expiredIn inQueue now = true) ≤ reclaimBatch) :
    after = before.map fun row => if row.expiredIn inQueue now then row.reclaim now else row := by
  obtain ⟨batch, rest, rfl, rfl, expired, card⟩ := reclaimed
  rw [Nat.min_eq_right few, Multiset.countP_add, Multiset.countP_eq_card.mpr expired] at card
  have kept : ∀ row ∈ rest, ¬ row.expiredIn inQueue now = true :=
    Multiset.countP_eq_zero.mp (by omega)
  rw [Multiset.map_add]
  congr 1
  · exact Multiset.map_congr rfl fun row member => (if_pos (expired row member)).symm
  · conv_lhs => rw [← Multiset.map_id rest]
    exact Multiset.map_congr rfl fun row member => (if_neg (kept row member)).symm

namespace JobTable

variable {entropy : Entropy} {table : JobTable}

/-- What is left beside a row is determined. -/
private theorem split_unique {rows rest others : Multiset Row} {row other : Row}
    (split : rows = row ::ₘ rest) (again : rows = other ::ₘ others) (same : row = other) :
    rest = others := by
  subst same
  exact (Multiset.cons_inj_right row).mp (split.symm.trans again)

/-- The first runnable job is determined. -/
private theorem Sound.first_unique {drawn : Nat} {rows rest others : Multiset Row}
    {row other : Row} (sound : Sound entropy ⟨rows, drawn⟩) {inQueue : QueueName → Bool}
    {now : Instant} (split : rows = row ::ₘ rest) (again : rows = other ::ₘ others)
    (first : row.First inQueue now rest) (also : other.First inQueue now others) :
    row = other := by
  have member : row ∈ rows := split ▸ Multiset.mem_cons_self row rest
  have among : other ∈ rows := again ▸ Multiset.mem_cons_self other others
  rcases Multiset.mem_cons.mp (split ▸ among) with rfl | later
  · rfl
  rcases Multiset.mem_cons.mp (again ▸ member) with rfl | earlier
  · rfl
  have keys := le_antisymm (first.least other later also.runnable)
    (also.least row earlier first.runnable)
  exact sound.same member among (congrArg (fun key => (ofLex key).2) keys)

end JobTable

variable {bounds : JobBounds} {entropy : Entropy} {table after next : JobTable}
  {answer other : JobAnswer}

/-! ## What a call can answer -/

/-- What a step that enqueues can do: find the duplicate, refuse a full queue, or put the job in. -/
private theorem JobStep.enqueue_inv {job : NewJob} {now : Instant}
    (step : JobStep bounds entropy .none table (.enqueue job now, answer) after) :
    (∃ key row, job.idempotencyKey = some key ∧ row ∈ table.rows ∧
        RowLimits.none.Holds job.queue key row ∧
        (answer, after) = (.enqueued (.ok (.duplicate row.job.id)), table)) ∨
      RowLimits.none.KeyFree table.rows job ∧
        (bounds.maxQueueDepth ≤ depthIn (RowLimits.none.inQueue job.queue) table.rows ∧
            (answer, after) = (.enqueued (.error .queueFull), table) ∨
          depthIn (RowLimits.none.inQueue job.queue) table.rows < bounds.maxQueueDepth ∧
            (answer, after) = (entropy table.drawn).elim
              (.enqueued (.error .entropyUnavailable), ⟨table.rows, table.drawn + 1⟩)
              fun id => (.enqueued (.ok (.created id)),
                ⟨Row.enqueued id job now ::ₘ table.rows, table.drawn + 1⟩)) := by
  cases step with
  | duplicate _ asked member holds => exact .inl ⟨_, _, asked, member, holds, rfl⟩
  | full _ free full => exact .inr ⟨free, .inl ⟨full, rfl⟩⟩
  | enqueueEntropy _ free room failed => exact .inr ⟨free, .inr ⟨room, by rw [failed]; rfl⟩⟩
  | created _ free room given => exact .inr ⟨free, .inr ⟨room, by rw [given]; rfl⟩⟩

/-- What a claim can do once it reclaimed: find nothing runnable, or draw a token for the first
job. -/
private theorem JobStep.claim_inv {queue : QueueName} {now : Instant} {lease : Nat}
    (step : JobStep bounds entropy .none table (.claim queue now lease, answer) after) :
    ∃ rows, Reclaimed (RowLimits.none.inQueue queue) now table.rows rows ∧
      ((∀ row ∈ rows, row.runnableIn (RowLimits.none.inQueue queue) now = false) ∧
          (answer, after) = (.claimed (.ok none), ⟨rows, table.drawn⟩) ∨
        ∃ row rest, rows = row ::ₘ rest ∧ row.First (RowLimits.none.inQueue queue) now rest ∧
          (answer, after) = (entropy table.drawn).elim
            (.claimed (.error .entropyUnavailable), ⟨row ::ₘ rest, table.drawn + 1⟩)
            fun token =>
              if now + lease ≤ systemTimeMax then
                (.claimed (.ok (some ⟨(row.claim token now lease).job, token, now + lease⟩)),
                  ⟨row.claim token now lease ::ₘ rest, table.drawn + 1⟩)
              else (.panicked, ⟨row.overrun token now ::ₘ rest, table.drawn + 1⟩)) := by
  cases step with
  | idle _ reclaimed nothing => exact ⟨_, reclaimed, .inl ⟨nothing, rfl⟩⟩
  | claimEntropy _ reclaimed first failed =>
      exact ⟨_, reclaimed, .inr ⟨_, _, rfl, first, by rw [failed]; rfl⟩⟩
  | claimed _ reclaimed first given _ _ fits =>
      exact ⟨_, reclaimed, .inr ⟨_, _, rfl, first, by rw [given]; exact (if_pos fits).symm⟩⟩
  | claimPanicked _ reclaimed first given _ past =>
      exact ⟨_, reclaimed, .inr ⟨_, _, rfl, first, by
        rw [given]
        exact (if_neg (not_le_of_gt past)).symm⟩⟩
  | claimedUnread _ _ _ _ _ unreadable => exact unreadable.elim
  | claimUncountable _ _ _ _ uncountable => exact uncountable.elim
  | claimDropped _ _ _ _ drops => exact (drops trivial).elim

/-- What completing can do: finish the job of the token, find it finished, or find it not held. -/
private theorem JobStep.complete_inv {token : LeaseToken} {now : Instant}
    (step : JobStep bounds entropy .none table (.complete token now, answer) after) :
    (∃ row rest, table.rows = row ::ₘ rest ∧ row.lease = some token ∧ row.job.state = .leased ∧
        (answer, after) =
          (.completed (.ok .completed), ⟨row.complete now ::ₘ rest, table.drawn⟩)) ∨
      (∃ row ∈ table.rows, row.lease = some token ∧ row.job.state = .completed ∧
        (answer, after) = (.completed (.ok .alreadyCompleted), table)) ∨
      (∀ row ∈ table.rows, row.lease = some token →
          row.job.state ≠ .leased ∧ row.job.state ≠ .completed) ∧
        (answer, after) = (.completed (.error .leaseNotHeld), table) := by
  cases step with
  | completed _ split held leased => exact .inl ⟨_, _, split, held, leased, rfl⟩
  | completedAgain _ member held done => exact .inr (.inl ⟨_, member, held, done, rfl⟩)
  | completeRefused _ nothing => exact .inr (.inr ⟨nothing, rfl⟩)

/-- What recording a failure can do: bury the job, reschedule it, or find it not held. -/
private theorem JobStep.fail_inv {token : LeaseToken} {failure : FailureKind}
    {nextRunAt now : Instant}
    (step : JobStep bounds entropy .none table (.fail token failure nextRunAt now, answer) after) :
    (∃ row rest, table.rows = row ::ₘ rest ∧ row.lease = some token ∧ row.job.state = .leased ∧
        (answer, after) = if row.spent failure = true then
            (.failed (.ok (.deadLettered row.job.attempts)),
              ⟨row.bury failure now ::ₘ rest, table.drawn⟩)
          else (.failed (.ok (.rescheduled nextRunAt row.job.attempts)),
            ⟨row.reschedule failure nextRunAt now ::ₘ rest, table.drawn⟩)) ∨
      (∀ row ∈ table.rows, row.lease = some token → row.job.state ≠ .leased) ∧
        (answer, after) = (.failed (.error .leaseNotHeld), table) := by
  cases step with
  | buried _ _ split held leased spent =>
      exact .inl ⟨_, _, split, held, leased, (if_pos spent).symm⟩
  | rescheduled _ _ split held leased spare =>
      exact .inl ⟨_, _, split, held, leased, (if_neg (by rw [spare]; exact Bool.noConfusion)).symm⟩
  | failRefused _ _ _ nothing => exact .inr ⟨nothing, rfl⟩

/-- What releasing can do: give the job of the token back, or find it not held. -/
private theorem JobStep.release_inv {token : LeaseToken} {now : Instant}
    (step : JobStep bounds entropy .none table (.release token now, answer) after) :
    (∃ row rest, table.rows = row ::ₘ rest ∧ row.lease = some token ∧ row.job.state = .leased ∧
        (answer, after) = (.released (.ok ()), ⟨row.release now ::ₘ rest, table.drawn⟩)) ∨
      (∀ row ∈ table.rows, row.lease = some token → row.job.state ≠ .leased) ∧
        (answer, after) = (.released (.error .leaseNotHeld), table) := by
  cases step with
  | released _ split held leased => exact .inl ⟨_, _, split, held, leased, rfl⟩
  | releaseRefused _ nothing => exact .inr ⟨nothing, rfl⟩

/-- What reviving can do: make a dead job ready, leave a live one alone, or find none. -/
private theorem JobStep.revive_inv {id : JobId} {now : Instant}
    (step : JobStep bounds entropy .none table (.revive id now, answer) after) :
    (∃ row rest, table.rows = row ::ₘ rest ∧ row.job.id = id ∧
        (answer, after) = if row.job.state = .dead then
            (.revived (.ok true), ⟨row.revive now ::ₘ rest, table.drawn⟩)
          else (.revived (.ok false), table)) ∨
      (∀ row ∈ table.rows, row.job.id ≠ id) ∧
        (answer, after) = (.revived (.error .notFound), table) := by
  cases step with
  | revived _ split dead => exact .inl ⟨_, _, split, rfl, (if_pos dead).symm⟩
  | reviveAlive _ member alive =>
      obtain ⟨rest, split⟩ := Multiset.exists_cons_of_mem member
      exact .inl ⟨_, rest, split, rfl, (if_neg alive).symm⟩
  | reviveUnknown _ nothing => exact .inr ⟨nothing, rfl⟩

/-- What reading can do: find the job of the identifier, or find none. -/
private theorem JobStep.read_inv {id : JobId}
    (step : JobStep bounds entropy .none table (.read id, answer) after) :
    (∃ row ∈ table.rows, row.job.id = id ∧
        (answer, after) = (.found (.ok (some row.job)), table)) ∨
      (∀ row ∈ table.rows, row.job.id ≠ id) ∧ (answer, after) = (.found (.ok none), table) := by
  cases step with
  | found member => exact .inl ⟨_, member, rfl, rfl⟩
  | foundUnread _ unreadable => exact unreadable.elim
  | missing nothing => exact .inr ⟨nothing, rfl⟩

/-! ## One answer -/

/-- The step that enqueues is determined, since a key is on one job of its queue at most. -/
private theorem enqueue_determined (sound : table.Sound entropy) {job : NewJob} {now : Instant}
    (first : JobStep bounds entropy .none table (.enqueue job now, answer) after)
    (second : JobStep bounds entropy .none table (.enqueue job now, other) next) :
    (answer, after) = (other, next) := by
  obtain ⟨key, row, asked, member, holds, one⟩ | ⟨free, ends⟩ := first.enqueue_inv
  · obtain ⟨_, holder, again, among, also, two⟩ | ⟨free, -⟩ := second.enqueue_inv
    · cases Option.some.inj (asked.symm.trans again)
      have same := sound.keyHolder member among (RowLimits.none_holds.mp holds)
        (RowLimits.none_holds.mp also)
      rw [one, two, same]
    · exact (free _ asked _ member holds).elim
  · obtain ⟨_, _, asked, member, holds, -⟩ | ⟨-, also⟩ := second.enqueue_inv
    · exact (free _ asked _ member holds).elim
    obtain ⟨full, one⟩ | ⟨room, one⟩ := ends <;> obtain ⟨full', two⟩ | ⟨room', two⟩ := also
    · exact one.trans two.symm
    · exact (Nat.not_le_of_lt room' full).elim
    · exact (Nat.not_le_of_lt room full').elim
    · exact one.trans two.symm

/-- A claim is determined where the expired leases of its queue fit into one batch. -/
private theorem claim_determined (sound : table.Sound entropy) {queue : QueueName} {now : Instant}
    {lease : Nat} (few : OneBatch table.rows (.claim queue now lease))
    (first : JobStep bounds entropy .none table (.claim queue now lease, answer) after)
    (second : JobStep bounds entropy .none table (.claim queue now lease, other) next) :
    (answer, after) = (other, next) := by
  obtain ⟨rows, reclaimed, ends⟩ := first.claim_inv
  obtain ⟨others, also, ends'⟩ := second.claim_inv
  -- Both claims take the same leases back, and then find the same first job.
  obtain rfl : rows = others := (reclaimed.every few).trans (also.every few).symm
  obtain ⟨nothing, one⟩ | ⟨row, rest, rfl, found, one⟩ := ends <;>
    obtain ⟨nothing', two⟩ | ⟨other, others, split, found', two⟩ := ends'
  · exact one.trans two.symm
  · have idle := nothing other (split ▸ Multiset.mem_cons_self other others)
    rw [found'.runnable] at idle
    cases idle
  · have idle := nothing' row (Multiset.mem_cons_self row rest)
    rw [found.runnable] at idle
    cases idle
  · obtain rfl := (sound.reclaimed reclaimed).first_unique rfl split found found'
    obtain rfl := JobTable.split_unique rfl split rfl
    exact one.trans two.symm

/-- The row a token splits off is determined. -/
private theorem holder_unique (sound : table.Sound entropy) {row holder : Row}
    {rest others : Multiset Row} {token : LeaseToken} (split : table.rows = row ::ₘ rest)
    (again : table.rows = holder ::ₘ others) (held : row.lease = some token)
    (also : holder.lease = some token) : row = holder ∧ rest = others := by
  have same := sound.holder (split ▸ Multiset.mem_cons_self row rest)
    (again ▸ Multiset.mem_cons_self holder others) held also
  exact ⟨same, JobTable.split_unique split again same⟩

/-- Completing is determined, since a token is on one job at most. -/
private theorem complete_determined (sound : table.Sound entropy) {token : LeaseToken}
    {now : Instant} (first : JobStep bounds entropy .none table (.complete token now, answer) after)
    (second : JobStep bounds entropy .none table (.complete token now, other) next) :
    (answer, after) = (other, next) := by
  have apart : ∀ {row holder : Row} {rest : Multiset Row}, table.rows = row ::ₘ rest →
      row.lease = some token → row.job.state = .leased → holder ∈ table.rows →
      holder.lease = some token → holder.job.state ≠ .completed := by
    intro row holder rest split held leased among also
    have member : row ∈ table.rows := split ▸ Multiset.mem_cons_self row rest
    rw [← sound.holder member among held also, leased]
    simp
  obtain ⟨row, rest, split, held, leased, one⟩ | ⟨row, member, held, done, one⟩ |
    ⟨nothing, one⟩ := first.complete_inv <;>
  obtain ⟨holder, others, split', held', leased', two⟩ | ⟨holder, member', held', done', two⟩ |
    ⟨nothing', two⟩ := second.complete_inv
  · obtain ⟨rfl, rfl⟩ := holder_unique sound split split' held held'
    exact one.trans two.symm
  · exact (apart split held leased member' held' done').elim
  · exact ((nothing' row (split ▸ Multiset.mem_cons_self row rest) held).1 leased).elim
  · exact (apart split' held' leased' member held done).elim
  · exact one.trans two.symm
  · exact ((nothing' row member held).2 done).elim
  · exact ((nothing holder (split' ▸ Multiset.mem_cons_self holder others) held').1 leased').elim
  · exact ((nothing holder member' held').2 done').elim
  · exact one.trans two.symm

/-- Recording a failure is determined, since a token is on one job at most. -/
private theorem fail_determined (sound : table.Sound entropy) {token : LeaseToken}
    {failure : FailureKind} {nextRunAt now : Instant}
    (first : JobStep bounds entropy .none table (.fail token failure nextRunAt now, answer) after)
    (second : JobStep bounds entropy .none table (.fail token failure nextRunAt now, other) next) :
    (answer, after) = (other, next) := by
  obtain ⟨row, rest, split, held, leased, one⟩ | ⟨nothing, one⟩ := first.fail_inv <;>
    obtain ⟨holder, others, split', held', leased', two⟩ | ⟨nothing', two⟩ := second.fail_inv
  · obtain ⟨rfl, rfl⟩ := holder_unique sound split split' held held'
    exact one.trans two.symm
  · exact (nothing' row (split ▸ Multiset.mem_cons_self row rest) held leased).elim
  · exact (nothing holder (split' ▸ Multiset.mem_cons_self holder others) held' leased').elim
  · exact one.trans two.symm

/-- Releasing is determined, since a token is on one job at most. -/
private theorem release_determined (sound : table.Sound entropy) {token : LeaseToken}
    {now : Instant} (first : JobStep bounds entropy .none table (.release token now, answer) after)
    (second : JobStep bounds entropy .none table (.release token now, other) next) :
    (answer, after) = (other, next) := by
  obtain ⟨row, rest, split, held, leased, one⟩ | ⟨nothing, one⟩ := first.release_inv <;>
    obtain ⟨holder, others, split', held', leased', two⟩ | ⟨nothing', two⟩ := second.release_inv
  · obtain ⟨rfl, rfl⟩ := holder_unique sound split split' held held'
    exact one.trans two.symm
  · exact (nothing' row (split ▸ Multiset.mem_cons_self row rest) held leased).elim
  · exact (nothing holder (split' ▸ Multiset.mem_cons_self holder others) held' leased').elim
  · exact one.trans two.symm

/-- Reviving is determined, since an identifier is on one job at most. -/
private theorem revive_determined (sound : table.Sound entropy) {id : JobId} {now : Instant}
    (first : JobStep bounds entropy .none table (.revive id now, answer) after)
    (second : JobStep bounds entropy .none table (.revive id now, other) next) :
    (answer, after) = (other, next) := by
  obtain ⟨row, rest, split, named, one⟩ | ⟨nothing, one⟩ := first.revive_inv <;>
    obtain ⟨holder, others, split', named', two⟩ | ⟨nothing', two⟩ := second.revive_inv
  · obtain rfl := sound.same (split ▸ Multiset.mem_cons_self row rest)
      (split' ▸ Multiset.mem_cons_self holder others) (named.trans named'.symm)
    obtain rfl := JobTable.split_unique split split' rfl
    exact one.trans two.symm
  · exact (nothing' row (split ▸ Multiset.mem_cons_self row rest) named).elim
  · exact (nothing holder (split' ▸ Multiset.mem_cons_self holder others) named').elim
  · exact one.trans two.symm

/-- Reading is determined, since an identifier is on one job at most. -/
private theorem read_determined (sound : table.Sound entropy) {id : JobId}
    (first : JobStep bounds entropy .none table (.read id, answer) after)
    (second : JobStep bounds entropy .none table (.read id, other) next) :
    (answer, after) = (other, next) := by
  obtain ⟨row, member, named, one⟩ | ⟨nothing, one⟩ := first.read_inv <;>
    obtain ⟨holder, member', named', two⟩ | ⟨nothing', two⟩ := second.read_inv
  · rw [one, two, sound.same member member' (named.trans named'.symm)]
  · exact (nothing' row member named).elim
  · exact (nothing holder member' named').elim
  · exact one.trans two.symm

/-- **A sound table without limits answers each call in one way**, provided a
claim takes every expired lease back. -/
theorem JobStep.determined (sound : table.Sound entropy) {op : JobOp}
    (few : OneBatch table.rows op) (first : JobStep bounds entropy .none table (op, answer) after)
    (second : JobStep bounds entropy .none table (op, other) next) :
    answer = other ∧ after = next := by
  rw [← Prod.mk.injEq]
  cases op with
  | enqueue => exact enqueue_determined sound first second
  | claim => exact claim_determined sound few first second
  | complete => exact complete_determined sound first second
  | fail => exact fail_determined sound first second
  | release => exact release_determined sound first second
  | revive => exact revive_determined sound first second
  | read => exact read_determined sound first second
  | depth =>
      cases first
      cases second
      rfl

end Renvor
