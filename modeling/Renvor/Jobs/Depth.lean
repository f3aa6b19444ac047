import Renvor.Jobs.MemoryInvariant
import Renvor.Jobs.SqlRefinement
import Mathlib.Data.Multiset.Filter

/-! # The depth bound

Enqueuing asks for room under the bound; reviving a dead job puts it back among
the counted ones and does not. The bound is kept along every run that revives a
job only where there is room (`Renvor.depth_within_bound`), and reviving one
where there is none exceeds it. An engine that takes several queues for one counts
them together, which leaves less room and not more.
-/

namespace Renvor

open Foundation

/-- A dead job is revived only where its queue has room. -/
def RevivesWithRoom (bounds : JobBounds) (rows : Multiset Row) : JobOp → Prop
  | .revive id _ => ∀ row ∈ rows, row.job.id = id → row.job.state = .dead →
      queueDepth rows row.job.queue < bounds.maxQueueDepth
  | _ => True

/-- No queue is deeper than the bound. -/
def DepthWithin (bounds : JobBounds) (rows : Multiset Row) : Prop :=
  ∀ queue, queueDepth rows queue ≤ bounds.maxQueueDepth

/-- Reviving with room keeps the bound along whole runs, and reviving without
exceeds it at once. -/
structure DepthBounded {State : Type*} (bounds : JobBounds)
    (system : TransitionSystem State (JobOp × JobAnswer)) (rows : State → Multiset Row) : Prop where
  within : ∀ first labels state, system.Initial first →
    (system.restrict fun state label => RevivesWithRoom bounds (rows state) label.1).Run first
      labels state → DepthWithin bounds (rows state)
  exceeds : ∀ state label after, system.Reachable state → system.Step state label after →
    ¬ RevivesWithRoom bounds (rows state) label.1 → ¬ DepthWithin bounds (rows after)

/-! ## Counting after an exchange -/

/-- One row more counts where it is ready or leased in the queue. -/
theorem queueDepth_cons (row : Row) (rest : Multiset Row) (queue : QueueName) :
    queueDepth (row ::ₘ rest) queue =
      queueDepth rest queue + if row.counted queue then 1 else 0 := by
  rw [queueDepth, depthIn, Multiset.countP_cons]
  rfl

/-- A store that takes more queues for one counts more jobs. -/
theorem queueDepth_le (limits : RowLimits) (rows : Multiset Row) (queue : QueueName) :
    queueDepth rows queue ≤ depthIn (limits.inQueue queue) rows := by
  rw [queueDepth, depthIn, depthIn, Multiset.countP_eq_card_filter, Multiset.countP_eq_card_filter]
  refine Multiset.card_le_card (Multiset.monotone_filter_right rows fun row counted => ?_)
  simp only [Row.countedIn, Bool.and_eq_true, decide_eq_true_eq] at counted ⊢
  obtain ⟨rfl, live⟩ := counted
  exact ⟨limits.queue_refl row.job.queue, live⟩

/-- A row counts for its own queue, and where it is ready or leased. -/
theorem Row.counted_iff {row : Row} {queue : QueueName} :
    row.counted queue = true ↔
      row.job.queue = queue ∧ (row.job.state = .ready ∨ row.job.state = .leased) := by
  simp [Row.countedIn]

/-- A row that is counted no more than before makes no queue deeper. -/
private theorem DepthWithin.exchange {bounds : JobBounds} {row after : Row} {rest : Multiset Row}
    (within : DepthWithin bounds (row ::ₘ rest))
    (counted : ∀ queue, after.counted queue = true → row.counted queue = true) :
    DepthWithin bounds (after ::ₘ rest) := by
  intro queue
  refine le_trans ?_ (within queue)
  rw [queueDepth_cons, queueDepth_cons]
  by_cases now : after.counted queue = true
  · rw [if_pos now, if_pos (counted queue now)]
  · rw [if_neg now]
    omega

/-- A counted row more, where there was room. -/
private theorem DepthWithin.add {bounds : JobBounds} {row : Row} {rest : Multiset Row}
    (within : DepthWithin bounds rest)
    (room : queueDepth rest row.job.queue < bounds.maxQueueDepth) :
    DepthWithin bounds (row ::ₘ rest) := by
  intro queue
  rw [queueDepth_cons]
  by_cases counted : row.counted queue = true
  · obtain ⟨same, -⟩ := Row.counted_iff.mp counted
    rw [if_pos counted, ← same]
    exact room
  · rw [if_neg counted]
    exact within queue

/-- What a transition out of the leased state leaves is counted no more than
before. -/
private theorem counted_from_leased {row after : Row} (leased : row.job.state = .leased)
    (same : after.job.queue = row.job.queue) (queue : QueueName)
    (counted : after.counted queue = true) : row.counted queue = true := by
  obtain ⟨inQueue, -⟩ := Row.counted_iff.mp counted
  exact Row.counted_iff.mpr ⟨same.symm.trans inQueue, .inr leased⟩

/-- Reclaiming makes no queue deeper, since what it takes back counted already. -/
private theorem Reclaimed.depthWithin {bounds : JobBounds} {inQueue : QueueName → Bool}
    {now : Instant} {before after : Multiset Row} (reclaimed : Reclaimed inQueue now before after)
    (within : DepthWithin bounds before) : DepthWithin bounds after := by
  refine reclaimed.preserve (DepthWithin bounds) (fun row rest expired whole => ?_) within
  have leased := Row.leased_of_expired expired
  exact whole.exchange (counted_from_leased leased rfl)

variable {bounds : JobBounds} {entropy : Entropy} {limits : RowLimits} {before after : JobTable}
  {label : JobOp × JobAnswer}

/-- **Every transition that revives with room keeps the bound.** -/
theorem JobStep.depthWithin (step : JobStep bounds entropy limits before label after)
    (room : RevivesWithRoom bounds before.rows label.1) (within : DepthWithin bounds before.rows) :
    DepthWithin bounds after.rows := by
  cases step with
  | duplicate | full | enqueueEntropy | completedAgain | completeRefused | failRefused
  | releaseRefused | reviveAlive | reviveUnknown | found | foundUnread | missing | depth =>
      exact within
  | created _ _ spare => exact within.add (lt_of_le_of_lt (queueDepth_le limits _ _) spare)
  | idle _ reclaimed | claimEntropy _ reclaimed | claimUncountable _ reclaimed
  | claimDropped _ reclaimed =>
      exact reclaimed.depthWithin within
  | claimed _ reclaimed first | claimedUnread _ reclaimed first | claimPanicked _ reclaimed first =>
      have ready := (Row.ready_of_runnable first.runnable).1
      refine (reclaimed.depthWithin within).exchange fun queue counted => ?_
      obtain ⟨inQueue, -⟩ := Row.counted_iff.mp counted
      exact Row.counted_iff.mpr ⟨inQueue, .inl ready⟩
  | completed _ split _ leased | buried _ _ split _ leased | rescheduled _ _ split _ leased
  | released _ split _ leased =>
      rw [split] at within
      exact within.exchange (counted_from_leased leased rfl)
  | @revived row rest now split dead =>
      have spare := room row (split ▸ Multiset.mem_cons_self row rest) rfl dead
      have uncounted : ∀ queue, ¬ row.counted queue = true := fun queue => by
        simp [Row.countedIn, dead]
      rw [split] at within spare
      have less : DepthWithin bounds rest := fun queue => by
        have whole := within queue
        rw [queueDepth_cons] at whole
        omega
      rw [queueDepth_cons, if_neg (uncounted _)] at spare
      exact less.add spare

/-- Reviving a job whose queue is full exceeds the bound. -/
theorem JobStep.exceeds_depth (step : JobStep bounds entropy limits before label after)
    (sound : before.Sound entropy) (full : ¬ RevivesWithRoom bounds before.rows label.1) :
    ¬ DepthWithin bounds after.rows := by
  rcases label with ⟨op, answer⟩
  cases op with
  | revive id now =>
      simp only [RevivesWithRoom, not_forall, Nat.not_lt] at full
      obtain ⟨row, member, rfl, dead, full⟩ := full
      generalize asked : JobOp.revive row.job.id now = op at step
      cases step with
      | @revived other rest _ split =>
          injection asked with same
          have among : other ∈ before.rows := split ▸ Multiset.mem_cons_self other rest
          obtain rfl := sound.same member among same
          intro within
          have deep := within row.job.queue
          rw [split, queueDepth_cons, if_neg (by simp [Row.countedIn, dead])] at full
          rw [queueDepth_cons, if_pos (by simp [Row.countedIn, Row.revive])] at deep
          omega
      | reviveAlive _ among alive =>
          injection asked with same
          exact (alive (sound.same member among same ▸ dead)).elim
      | reviveUnknown _ nothing =>
          injection asked with same
          exact (nothing row member same).elim
      | _ => cases asked
  | _ => exact (full trivial).elim

/-- **The job table keeps the depth bound** where jobs are revived with room,
and with it every store that refines it. -/
theorem DepthBounded.of_refines (fresh : entropy.Fresh) {State : Type*}
    {system : TransitionSystem State (JobOp × JobAnswer)} {invariant : State → Prop}
    {abstraction : State → JobTable}
    (refines : TransitionSystem.Refinement system (jobSystem bounds entropy limits) invariant
      abstraction) : DepthBounded bounds system fun state => (abstraction state).rows where
  within first labels state initial run := by
    have guarded := refines.restrict fun table label => RevivesWithRoom bounds table.rows label.1
    obtain ⟨holds, start⟩ := refines.initial first initial
    have abstract := (guarded.run run holds).2
    clear run
    generalize abstraction first = origin at start abstract
    generalize abstraction state = last at abstract ⊢
    induction abstract with
    | refl =>
        cases start
        exact fun queue => Nat.zero_le _
    | snoc _ step ih => exact step.1.depthWithin step.2 ih
  exceeds state label after reachable step full := by
    have sound := JobTable.sound_reachable fresh (refines.reachable reachable).2
    exact (refines.step_reachable reachable step).exceeds_depth sound full

/-- **Both stores keep the depth bound** in every state reached by reviving jobs
only where their queue has room, whatever the engine's collation. -/
theorem depth_within_bound (bounds : JobBounds) {entropy : Entropy} (fresh : entropy.Fresh)
    {engine : SqlEngine} (collates : engine.Collates) :
    DepthBounded bounds (memorySystem bounds entropy)
        (fun store => (store.table.rows : Multiset Row)) ∧
      DepthBounded bounds (sqlSystem engine bounds entropy)
        (fun store => (store.rows : Multiset Row)) :=
  ⟨.of_refines fresh (memory_refines bounds fresh),
    .of_refines fresh (sql_refines collates bounds fresh)⟩

/-- Bounds under which a queue has room for one job. -/
def JobBounds.single : JobBounds :=
  { JobBounds.default with maxQueueDepth := 1, depth := by decide }

/-- A job that fails for good is revived into the room it left. -/
theorem depth_within_revived :
    DepthWithin .single (MemoryJobStore.empty.after .single .counting [.enqueue .receipt 0,
      .claim NewJob.receipt.queue 0 5, .fail (.counted 1) .handlerFailed 3 2,
      .revive (.counted 0) 4]).table.rows := by
  have bounded :=
    (depth_within_bound .single Entropy.counting_fresh SqlEngine.caseless_collates).1
  have failed := MemoryJobStore.run_answers .single .counting .empty [.enqueue .receipt 0,
    .claim NewJob.receipt.queue 0 5, .fail (.counted 1) .handlerFailed 3 2]
  have revived := MemoryJobStore.step_run .single .counting (MemoryJobStore.empty.after .single
    .counting [.enqueue .receipt 0, .claim NewJob.receipt.queue 0 5,
      .fail (.counted 1) .handlerFailed 3 2]) (.revive (.counted 0) 4)
  refine bounded.within _ _ _ rfl (.snoc (failed.restrict_labels ?_) ⟨revived, ?_⟩)
  · simp [MemoryJobStore.answers, RevivesWithRoom]
  · simp only [RevivesWithRoom]
    decide

/-- A dead job revived into a queue that has filled since is one too many. -/
theorem depth_exceeded_by_revive :
    ∃ store, (memorySystem .single .counting).Reachable store ∧
      queueDepth store.table.rows NewJob.receipt.queue = 2 := by
  refine ⟨_, MemoryJobStore.reachable_after .single .counting [.enqueue .receipt 0,
    .claim NewJob.receipt.queue 0 5, .fail (.counted 1) .handlerFailed 3 2, .enqueue .receipt 3,
    .revive (.counted 0) 4], ?_⟩
  decide

end Renvor
