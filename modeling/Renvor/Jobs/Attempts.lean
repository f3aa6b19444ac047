import Renvor.Jobs.MemoryInvariant

/-! # The attempts limit

A claim hands out a ready job and counts the attempt, so a job stays within its
limit as long as no job is ready at its limit. Failing and taking back an
expired lease both ask whether attempts remain; releasing does not. The limit
is kept along every run that releases no job at its last attempt
(`Renvor.attempts_within_limit`), and a release of such a job breaks it.
-/

namespace Renvor

open Foundation

/-- How often a job has been handed out, one answer later. Enqueuing and
reviving it start over. -/
def countHanded (id : JobId) (count : Nat) : JobOp × JobAnswer → Nat
  | (.enqueue _ _, .enqueued (.ok (.created created))) => if created = id then 0 else count
  | (.revive revived _, .revived (.ok true)) => if revived = id then 0 else count
  | (.claim _ _ _, .claimed (.ok (some claimed))) =>
      if claimed.job.id = id then count + 1 else count
  | _ => count

/-- How often a job has been handed out since it was enqueued or last
revived. -/
def handedOut (id : JobId) (labels : List (JobOp × JobAnswer)) : Nat :=
  labels.foldl (countHanded id) 0

/-- How often a job was handed out counts on with the last step. -/
@[simp] theorem handedOut_snoc (id : JobId) (labels : List (JobOp × JobAnswer))
    (label : JobOp × JobAnswer) :
    handedOut id (labels ++ [label]) = countHanded id (handedOut id labels) label := by
  simp [handedOut]

/-- The attempts limit is kept, after calls answered so. -/
structure AttemptsKept (labels : List (JobOp × JobAnswer)) (rows : Multiset Row) : Prop where
  bounded : ∀ row ∈ rows, row.job.attempts ≤ row.job.maxAttempts
  handed : ∀ row ∈ rows, handedOut row.job.id labels ≤ row.job.maxAttempts
  /-- A job whose attempts are exhausted is not ready. -/
  exhausted : ∀ row ∈ rows, row.job.attempts ≥ row.job.maxAttempts → row.job.state ≠ .ready

/-- A lease is not released at the job's last attempt. -/
def SparesLast (rows : Multiset Row) : JobOp → Prop
  | .release token _ => ∀ row ∈ rows, row.lease = some token → row.job.state = .leased →
      row.job.attempts < row.job.maxAttempts
  | _ => True

namespace Row

/-- The job is within its limit, and below it while it is ready. -/
structure Within (row : Row) : Prop where
  positive : 0 < row.job.maxAttempts
  bounded : row.job.attempts ≤ row.job.maxAttempts
  spare : row.job.state = .ready → row.job.attempts < row.job.maxAttempts

variable {row : Row}

/-- A new job has used none of its attempts. -/
theorem within_enqueued (id : JobId) (job : NewJob) (now : Instant) :
    (enqueued id job now).Within :=
  ⟨job.attempts.1, Nat.zero_le _, fun _ => job.attempts.1⟩

/-- Reclaiming keeps the attempts within their limit, burying the job at the limit. -/
theorem Within.reclaim (within : row.Within) (now : Instant) : (row.reclaim now).Within := by
  refine ⟨within.positive, within.bounded, ?_⟩
  intro ready
  by_contra last
  have dead : (row.reclaim now).job.state = .dead := if_pos (Nat.le_of_not_lt last)
  rw [dead] at ready
  cases ready

/-- Claiming counts one attempt, for which a ready job has room. -/
theorem Within.claim (within : row.Within) (ready : row.job.state = .ready) (token : LeaseToken)
    (now : Instant) (lease : Nat) : (row.claim token now lease).Within :=
  ⟨within.positive, within.spare ready, fun again => by cases again⟩

/-- A claim that panics has counted its attempt, for which there was room. -/
theorem Within.overrun (within : row.Within) (ready : row.job.state = .ready) (token : LeaseToken)
    (now : Instant) : (row.overrun token now).Within :=
  ⟨within.positive, within.spare ready, fun again => by cases again⟩

/-- Completing counts no attempt. -/
theorem Within.complete (within : row.Within) (now : Instant) : (row.complete now).Within :=
  ⟨within.positive, within.bounded, fun ready => by cases ready⟩

/-- Burying counts no attempt. -/
theorem Within.bury (within : row.Within) (failure : FailureKind) (now : Instant) :
    (row.bury failure now).Within :=
  ⟨within.positive, within.bounded, fun ready => by cases ready⟩

/-- Rescheduling leaves room for an attempt, since a spent job is buried. -/
theorem Within.reschedule (within : row.Within) {failure : FailureKind}
    (spare : row.spent failure = false) (nextRunAt now : Instant) :
    (row.reschedule failure nextRunAt now).Within := by
  refine ⟨within.positive, within.bounded, fun _ => ?_⟩
  simp only [spent, Bool.or_eq_false_iff, decide_eq_false_iff_not] at spare
  exact Nat.lt_of_not_le spare.2

/-- Releasing leaves room for an attempt only where there is one to spare. -/
theorem Within.release (within : row.Within) (spare : row.job.attempts < row.job.maxAttempts)
    (now : Instant) : (row.release now).Within :=
  ⟨within.positive, within.bounded, fun _ => spare⟩

/-- Reviving starts the attempts anew. -/
theorem Within.revive (within : row.Within) (now : Instant) : (row.revive now).Within :=
  ⟨within.positive, Nat.zero_le _, fun _ => within.positive⟩

end Row

variable {bounds : JobBounds} {entropy : Entropy} {limits : RowLimits} {before after : JobTable}
  {label : JobOp × JobAnswer}

/-- **Every transition that spares the last attempt keeps the jobs within their
limits.** -/
theorem JobStep.within (step : JobStep bounds entropy limits before label after)
    (spares : SparesLast before.rows label.1) (within : ∀ row ∈ before.rows, row.Within) :
    ∀ row ∈ after.rows, row.Within := by
  cases step with
  | duplicate | full | enqueueEntropy | completedAgain | completeRefused | failRefused
  | releaseRefused | reviveAlive | reviveUnknown | found | foundUnread | missing | depth =>
      exact within
  | @created job id now =>
      intro row member
      rcases Multiset.mem_cons.mp member with rfl | later
      · exact Row.within_enqueued id job now
      · exact within row later
  | idle lease reclaimed | claimEntropy lease reclaimed | claimUncountable lease reclaimed
  | claimDropped lease reclaimed =>
      exact reclaimed.forall_rows (fun _ _ one => one.reclaim _) within
  | claimed lease reclaimed first | claimedUnread lease reclaimed first =>
      have ready := (Row.ready_of_runnable first.runnable).1
      have still := reclaimed.forall_rows (fun _ _ one => one.reclaim _) within
      exact forall_exchange still fun one => one.claim ready _ _ lease
  | claimPanicked lease reclaimed first =>
      have ready := (Row.ready_of_runnable first.runnable).1
      have still := reclaimed.forall_rows (fun _ _ one => one.reclaim _) within
      exact forall_exchange still fun one => one.overrun ready _ _
  | completed now split =>
      exact forall_exchange (split ▸ within) fun one => one.complete now
  | buried nextRunAt now split =>
      exact forall_exchange (split ▸ within) fun one => one.bury _ now
  | rescheduled nextRunAt now split held leased spare =>
      exact forall_exchange (split ▸ within) fun one => one.reschedule spare nextRunAt now
  | @released row rest token now split held leased =>
      have spare := spares row (split ▸ Multiset.mem_cons_self row rest) held leased
      exact forall_exchange (split ▸ within) fun one => one.release spare now
  | revived now split =>
      exact forall_exchange (split ▸ within) fun one => one.revive now

/-- Each job was handed out no more often than it counts attempts. -/
def Counted (labels : List (JobOp × JobAnswer)) (rows : Multiset Row) : Prop :=
  ∀ row ∈ rows, handedOut row.job.id labels ≤ row.job.attempts

/-- **Every transition counts what it hands out.** -/
theorem JobStep.counted (step : JobStep bounds entropy limits before label after)
    (sound : before.Sound entropy) {labels : List (JobOp × JobAnswer)}
    (counted : Counted labels before.rows) : Counted (labels ++ [label]) after.rows := by
  simp only [Counted, handedOut_snoc]
  cases step with
  | duplicate | full | enqueueEntropy | completedAgain | completeRefused | failRefused
  | releaseRefused | reviveAlive | reviveUnknown | found | foundUnread | missing | depth =>
      exact counted
  | @created job id now =>
      intro row member
      rcases Multiset.mem_cons.mp member with rfl | later
      · simp [countHanded, Row.enqueued]
      · simp only [countHanded]
        split
        · exact Nat.zero_le _
        · exact counted row later
  | idle lease reclaimed | claimEntropy lease reclaimed | claimUncountable lease reclaimed
  | claimDropped lease reclaimed =>
      exact reclaimed.forall_rows (fun _ _ one => one) counted
  | @claimed queue now row rest token lease reclaimed =>
      have still : Counted labels (row ::ₘ rest) :=
        reclaimed.forall_rows (fun _ _ one => one) counted
      have distinct := (sound.reclaimed reclaimed).ids
      rw [Multiset.map_cons, Multiset.nodup_cons] at distinct
      intro other member
      rcases Multiset.mem_cons.mp member with rfl | later
      · have before := still row (Multiset.mem_cons_self row rest)
        simpa [countHanded, Row.claim] using before
      · have different : row.job.id ≠ other.job.id := fun same =>
          distinct.1 (same ▸ Multiset.mem_map_of_mem _ later)
        simpa [countHanded, Row.claim, different] using
          still other (Multiset.mem_cons_of_mem later)
  | claimedUnread lease reclaimed | claimPanicked lease reclaimed =>
      have still := reclaimed.forall_rows (fun _ _ one => one) counted
      exact forall_exchange still fun one => Nat.le_succ_of_le one
  | completed now split | buried nextRunAt now split | rescheduled nextRunAt now split
  | released now split =>
      have every : Counted labels (_ ::ₘ _) := split ▸ counted
      exact forall_exchange every fun one => one
  | @revived row rest now split =>
      have every : Counted labels (row ::ₘ rest) := split ▸ counted
      intro other member
      rcases Multiset.mem_cons.mp member with rfl | later
      · simp [countHanded, Row.revive]
      · simp only [countHanded]
        split
        · exact Nat.zero_le _
        · exact every other (Multiset.mem_cons_of_mem later)

/-- **Along a run that spares the last attempt, every job stays within its
limit.** -/
theorem jobs_within_limit (fresh : entropy.Fresh) {first last : JobTable} {labels : List (JobOp × JobAnswer)}
    (initial : (jobSystem bounds entropy limits).Initial first)
    (run : ((jobSystem bounds entropy limits).restrict fun table label =>
      SparesLast table.rows label.1).Run first labels last) :
    AttemptsKept labels last.rows := by
  have kept : (∀ row ∈ last.rows, row.Within) ∧ Counted labels last.rows := by
    induction run with
    | refl =>
        cases initial
        simp [Counted]
    | @snoc front before after label previous step ih =>
        have sound := JobTable.sound_reachable fresh ⟨first, front, initial, previous.of_restrict⟩
        exact ⟨step.1.within step.2 ih.1, step.1.counted sound ih.2⟩
  obtain ⟨within, counted⟩ := kept
  constructor
  · exact fun row member => (within row member).bounded
  · exact fun row member => (counted row member).trans (within row member).bounded
  · exact fun row member last ready =>
      Nat.not_le_of_lt ((within row member).spare ready) last

/-- A job released at its last attempt is ready with its attempts exhausted. -/
theorem JobStep.exhausted_ready (step : JobStep bounds entropy limits before label after)
    (sound : before.Sound entropy) (last : ¬ SparesLast before.rows label.1) :
    ∃ row ∈ after.rows, row.job.state = .ready ∧ row.job.attempts ≥ row.job.maxAttempts := by
  rcases label with ⟨op, answer⟩
  cases op with
  | release token now =>
      simp only [SparesLast, not_forall, Nat.not_lt] at last
      obtain ⟨row, member, held, leased, last⟩ := last
      cases step with
      | @released other rest _ _ split lease =>
          have among : other ∈ before.rows := split ▸ Multiset.mem_cons_self other rest
          have same := Multiset.inj_on_of_nodup_map sound.ids row member other among
            (sound.tokens row member other among token held lease)
          exact ⟨_, Multiset.mem_cons_self _ rest, rfl, same ▸ last⟩
      | releaseRefused _ nothing => exact (nothing row member held leased).elim
  | _ => exact (last trivial).elim

/-- **The in-memory store keeps the attempts limit** in every state reached by
releasing no job at its last attempt, and a release at the last attempt leaves
an exhausted job ready. -/
theorem attempts_within_limit (bounds : JobBounds) {entropy : Entropy} (fresh : entropy.Fresh) :
    (∀ labels store, ((memorySystem bounds entropy).restrict fun store label =>
        SparesLast store.table.rows label.1).Run .empty labels store →
      AttemptsKept labels store.table.rows) ∧
    (∀ store label after labels, (memorySystem bounds entropy).Reachable store →
      (memorySystem bounds entropy).Step store label after →
      ¬ SparesLast store.table.rows label.1 → ¬ AttemptsKept labels after.table.rows) := by
  have refines := memory_refines bounds fresh
  constructor
  · intro labels store run
    have guarded := refines.restrict fun table label => SparesLast table.rows label.1
    exact jobs_within_limit fresh (refines.initial .empty rfl).2
      (guarded.run run (refines.initial .empty rfl).1).2
  · intro store label after labels reachable step last kept
    have taken := refines.step_reachable reachable step
    obtain ⟨row, member, ready, exhausted⟩ :=
      taken.exhausted_ready (refines.reachable reachable).1.jobs last
    exact kept.exhausted row member exhausted ready

/-- A job that fails its only attempt is within its limit. -/
theorem failed_within_limit :
    AttemptsKept (MemoryJobStore.empty.answers .default .counting [.enqueue .receipt 0,
        .claim NewJob.receipt.queue 0 5, .fail (.counted 1) .handlerFailed 3 2])
      (MemoryJobStore.empty.after .default .counting [.enqueue .receipt 0,
        .claim NewJob.receipt.queue 0 5, .fail (.counted 1) .handlerFailed 3 2]).table.rows := by
  refine (attempts_within_limit .default Entropy.counting_fresh).1 _ _ ?_
  refine (MemoryJobStore.run_answers _ _ _ _).restrict_labels ?_
  simp [MemoryJobStore.answers, SparesLast]

/-- A job of one attempt that is released is handed out twice. -/
theorem released_exceeds_limit :
    ∃ labels store, (memorySystem .default .counting).Run .empty labels store ∧
      ∃ row ∈ store.table.rows, row.job.maxAttempts = 1 ∧ row.job.attempts = 2 ∧
        handedOut row.job.id labels = 2 := by
  refine ⟨_, _, MemoryJobStore.run_answers .default .counting .empty [.enqueue .receipt 0,
    .claim NewJob.receipt.queue 0 5, .release (.counted 1) 1,
    .claim NewJob.receipt.queue 2 5], ?_⟩
  exact ⟨_, List.mem_cons_self, rfl, rfl, by decide⟩

end Renvor
