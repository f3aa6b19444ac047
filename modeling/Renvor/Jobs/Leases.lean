import Renvor.Jobs.MemoryInvariant

/-! # The discipline of leases

A token is inherited or new: whatever a row holds after a transition, the row
of the same job held before, or it was not issued before
(`Renvor.JobStep.inherits`). A token that no row holds any more is therefore
lost for good, and a completed row never changes.
-/

namespace Renvor

open Foundation

/-- The calls that present a lease. -/
def JobOp.Presents (token : LeaseToken) : JobOp → Prop
  | .complete lease _ | .fail lease _ _ _ | .release lease _ => lease = token
  | _ => False

/-- The call is answered that its lease is not held. -/
def JobAnswer.LeaseRefused : JobAnswer → Prop
  | .completed (.error .leaseNotHeld) | .failed (.error .leaseNotHeld)
  | .released (.error .leaseNotHeld) => True
  | _ => False

/-- The answer hands a job out under a token. -/
def HandsOut (id : JobId) (token : LeaseToken) : JobOp × JobAnswer → Prop
  | (.claim _ _ _, .claimed (.ok (some claimed))) => claimed.job.id = id ∧ claimed.lease = token
  | _ => False

/-- The ways a lease ends other than by completion. A claim may take an expired
lease back and hand the job out again at once. -/
inductive LeaseEnds (token : LeaseToken) (front : List (JobOp × JobAnswer))
    (before after : Multiset Row) : JobOp × JobAnswer → Prop
  | released (now : Instant) : LeaseEnds token front before after
      (.release token now, .released (.ok ()))
  | failed (failure : FailureKind) (nextRunAt now : Instant) (outcome : FailureOutcome) :
      LeaseEnds token front before after
        (.fail token failure nextRunAt now, .failed (.ok outcome))
  | reclaimed {row : Row} (queue : QueueName) (now : Instant) (lease : Nat) (answer : JobAnswer)
      (member : row ∈ before) (held : row.lease = some token)
      (expired : row.expired queue now = true)
      (gone : ∀ later ∈ after, later.job.id = row.job.id → later.lease ≠ some token) :
      LeaseEnds token front before after (.claim queue now lease, answer)
  | revived {id : JobId} {earlier : JobOp × JobAnswer} (now : Instant) (claimed : earlier ∈ front)
      (handed : HandsOut id token earlier) :
      LeaseEnds token front before after (.revive id now, .revived (.ok true))

/-- A job that was not completed is. -/
def Completes (id : JobId) (before after : Multiset Row) : Prop :=
  (∀ row ∈ before, row.job.id = id → row.job.state ≠ .completed) ∧
    ∃ row ∈ after, row.job.id = id ∧ row.job.state = .completed

/-- What a job store promises its workers, over any of its runs. -/
structure LeaseDiscipline {State : Type*} (system : TransitionSystem State (JobOp × JobAnswer))
    (rows : State → Multiset Row) : Prop where
  /-- A job is stored once and its row holds at most one lease; no lease is on
  two jobs. -/
  current : ∀ {state}, system.Reachable state →
    ((rows state).map fun row => row.job.id).Nodup ∧
      ∀ row ∈ rows state, ∀ other ∈ rows state, ∀ token, row.lease = some token →
        other.lease = some token → row = other
  /-- A lease that was released, failed, taken back or whose job was revived is
  refused from then on. -/
  ended : ∀ {first front before label after suffix later op answer last token},
    system.Initial first → system.Run first front before → system.Step before label after →
    LeaseEnds token front (rows before) (rows after) label → system.Run after suffix later →
    system.Step later (op, answer) last → op.Presents token →
      answer.LeaseRefused ∧ rows last = rows later
  /-- A completed job stays as it is. -/
  stays : ∀ {first labels last}, system.Reachable first → system.Run first labels last →
    ∀ row ∈ rows first, row.job.state = .completed → row ∈ rows last
  /-- No job becomes completed twice. -/
  once : ∀ {first label second between before again after id}, system.Reachable first →
    system.Step first label second → Completes id (rows first) (rows second) →
    system.Run second between before → system.Step before again after →
      ¬ Completes id (rows before) (rows after)
  /-- The completing token is on the completed job, and its repetition is
  accepted without a change. -/
  again : ∀ {before token now after labels later since answer last}, system.Reachable before →
    system.Step before (.complete token now, .completed (.ok .completed)) after →
    system.Run after labels later → system.Step later (.complete token since, answer) last →
      (∃ row ∈ rows before, row.job.state = .leased ∧ row.lease = some token ∧
        row.complete now ∈ rows after) ∧
      answer = .completed (.ok .alreadyCompleted) ∧ rows last = rows later
  /-- Every other token the completed job was handed out under is refused, and
  any other token at all unless it is another job's. -/
  others : ∀ {first labels state row token other op answer last}, system.Initial first →
    system.Run first labels state → row ∈ rows state → row.job.state = .completed →
    row.lease = some token → other ≠ token → system.Step state (op, answer) last →
    op.Presents other →
      ((∃ label ∈ labels, HandsOut row.job.id other label) →
        answer.LeaseRefused ∧ rows last = rows state) ∧
      ((answer.LeaseRefused ∧ rows last = rows state) ∨
        ∃ holder ∈ rows state, holder.job.id ≠ row.job.id ∧ holder.lease = some other)

/-! ## Tokens are inherited or new -/

/-- Every lease was held by the same job before. -/
def Inherits (before after : Multiset Row) : Prop :=
  ∀ later ∈ after, ∀ token, later.lease = some token →
    ∃ row ∈ before, row.job.id = later.job.id ∧ row.lease = some token

namespace Inherits

/-- Rows inherit from themselves. -/
theorem refl (rows : Multiset Row) : Inherits rows rows :=
  fun row member _ held => ⟨row, member, rfl, held⟩

/-- What is inherited is handed on. -/
theorem trans {first second third : Multiset Row} (left : Inherits first second)
    (right : Inherits second third) : Inherits first third := by
  intro later member token held
  obtain ⟨row, among, same, lease⟩ := right later member token held
  obtain ⟨origin, found, again, kept⟩ := left row among token lease
  exact ⟨origin, found, again.trans same, kept⟩

/-- A row that takes the place of another inherits from it, where it has its identifier and no
new lease. -/
theorem exchange (row after : Row) (rest : Multiset Row) (same : after.job.id = row.job.id)
    (lease : ∀ token, after.lease = some token → row.lease = some token) :
    Inherits (row ::ₘ rest) (after ::ₘ rest) := by
  intro later member token held
  rcases Multiset.mem_cons.mp member with rfl | other
  · exact ⟨row, Multiset.mem_cons_self row rest, same.symm, lease token held⟩
  · exact ⟨later, Multiset.mem_cons_of_mem other, rfl, held⟩

end Inherits

/-- Reclaiming gives no row a new lease. -/
theorem Reclaimed.inherits {inQueue : QueueName → Bool} {now : Instant}
    {before after : Multiset Row} (reclaimed : Reclaimed inQueue now before after) : Inherits before after := by
  refine reclaimed.preserve (Inherits before) (fun row rest _ holds => ?_) (.refl before)
  have one : Inherits (row ::ₘ rest) (row.reclaim now ::ₘ rest) :=
    .exchange _ _ rest rfl (by simp [Row.reclaim])
  exact holds.trans one

variable {bounds : JobBounds} {entropy : Entropy} {limits : RowLimits} {before after : JobTable}
  {label : JobOp × JobAnswer}

/-- Leasing a row gives it a new token and leaves the others theirs. -/
private theorem inherits_lease {row after : Row} {rest rows : Multiset Row} {token : LeaseToken}
    {drawn : Nat} (fresh : entropy.Fresh) (kept : Inherits rows (row ::ₘ rest))
    (given : entropy drawn = some token) (leased : after.lease = some token) :
    ∀ later ∈ after ::ₘ rest, ∀ other, later.lease = some other →
      entropy.Issued drawn other → ∃ row ∈ rows, row.job.id = later.job.id ∧ row.lease = some other := by
  intro later member other held old
  rcases Multiset.mem_cons.mp member with rfl | among
  · cases leased.symm.trans held
    exact (fresh.unissued given old).elim
  · exact kept later (Multiset.mem_cons_of_mem among) other held

/-- **A token a row holds was held by the same job before, or is new.** -/
theorem JobStep.inherits (fresh : entropy.Fresh)
    (step : JobStep bounds entropy limits before label after) :
    ∀ later ∈ after.rows, ∀ token, later.lease = some token → entropy.Issued before.drawn token →
      ∃ row ∈ before.rows, row.job.id = later.job.id ∧ row.lease = some token := by
  cases step with
  | duplicate | full | enqueueEntropy | completedAgain | completeRefused | failRefused
  | releaseRefused | reviveAlive | reviveUnknown | found | foundUnread | missing | depth =>
      exact fun later member token held _ => ⟨later, member, rfl, held⟩
  | created =>
      intro later member token held old
      rcases Multiset.mem_cons.mp member with rfl | other
      · cases held
      · exact ⟨later, other, rfl, held⟩
  | idle lease reclaimed | claimEntropy lease reclaimed | claimUncountable lease reclaimed
  | claimDropped lease reclaimed =>
      exact fun later member token held _ => reclaimed.inherits later member token held
  | claimed lease reclaimed first given | claimedUnread lease reclaimed first given
  | claimPanicked lease reclaimed first given =>
      exact inherits_lease fresh reclaimed.inherits given rfl
  | @completed row rest _ now split =>
      have one : Inherits (row ::ₘ rest) (row.complete now ::ₘ rest) :=
        .exchange _ _ rest rfl fun _ same => same
      exact fun later member token held _ => split ▸ one later member token held
  | @buried row rest _ failure nextRunAt now split =>
      have one : Inherits (row ::ₘ rest) (row.bury failure now ::ₘ rest) :=
        .exchange _ _ rest rfl (by simp [Row.bury])
      exact fun later member token held _ => split ▸ one later member token held
  | @rescheduled row rest _ failure nextRunAt now split =>
      have one : Inherits (row ::ₘ rest) (row.reschedule failure nextRunAt now ::ₘ rest) :=
        .exchange _ _ rest rfl (by simp [Row.reschedule])
      exact fun later member token held _ => split ▸ one later member token held
  | @released row rest _ now split =>
      have one : Inherits (row ::ₘ rest) (row.release now ::ₘ rest) :=
        .exchange _ _ rest rfl (by simp [Row.release])
      exact fun later member token held _ => split ▸ one later member token held
  | @revived row rest now split =>
      have one : Inherits (row ::ₘ rest) (row.revive now ::ₘ rest) :=
        .exchange _ _ rest rfl (by simp [Row.revive])
      exact fun later member token held _ => split ▸ one later member token held

/-- The token was issued, and only this job may hold it. -/
def Owned (entropy : Entropy) (id : JobId) (token : LeaseToken) (table : JobTable) : Prop :=
  entropy.Issued table.drawn token ∧ ∀ row ∈ table.rows, row.lease = some token → row.job.id = id

/-- The token was issued and no row holds it. -/
def Lost (entropy : Entropy) (token : LeaseToken) (table : JobTable) : Prop :=
  entropy.Issued table.drawn token ∧ ∀ row ∈ table.rows, row.lease ≠ some token

/-- A lease that was given out once stays with its job, since no token is drawn again. -/
theorem owned_stable (fresh : entropy.Fresh) (id : JobId) (token : LeaseToken) :
    (jobSystem bounds entropy limits).Stable (Owned entropy id token) := by
  rintro before label after ⟨issued, owner⟩ step
  refine ⟨issued.mono step.drawn_le, ?_⟩
  intro later member held
  obtain ⟨row, among, same, lease⟩ := step.inherits fresh later member token held issued
  rw [← same]
  exact owner row among lease

/-- **A lost token stays lost.** -/
theorem lost_stable (fresh : entropy.Fresh) (token : LeaseToken) :
    (jobSystem bounds entropy limits).Stable (Lost entropy token) := by
  rintro before label after ⟨issued, unheld⟩ step
  refine ⟨issued.mono step.drawn_le, ?_⟩
  intro later member held
  obtain ⟨row, among, _, lease⟩ := step.inherits fresh later member token held issued
  exact unheld row among lease

/-- A job handed out owns its token. -/
theorem owned_of_handsOut (fresh : entropy.Fresh) (sound : before.Sound entropy) {id : JobId} {token : LeaseToken}
    (step : JobStep bounds entropy limits before label after) (handed : HandsOut id token label) :
    Owned entropy id token after := by
  cases step with
  | @claimed queue now row rest token lease reclaimed first given =>
      obtain ⟨rfl, rfl⟩ := handed
      refine ⟨Entropy.issued_next given, ?_⟩
      intro later member held
      rcases Multiset.mem_cons.mp member with rfl | other
      · rfl
      · have among : later ∈ row ::ₘ rest := Multiset.mem_cons_of_mem other
        have old := (sound.reclaimed reclaimed).issuedTokens later among _ held
        exact (fresh.unissued given old).elim
  | _ => exact handed.elim

/-- Along a run, a token stays with the job it was handed out for. -/
theorem owned_of_run (fresh : entropy.Fresh) {first last : JobTable} {labels : List (JobOp × JobAnswer)} {id : JobId}
    {token : LeaseToken} (initial : (jobSystem bounds entropy limits).Initial first)
    (run : (jobSystem bounds entropy limits).Run first labels last)
    (handed : ∃ label ∈ labels, HandsOut id token label) : Owned entropy id token last := by
  obtain ⟨label, member, handed⟩ := handed
  obtain ⟨front, suffix, before, after, _, earlier, step, later⟩ := run.mem_inv member
  have sound := JobTable.sound_reachable fresh ⟨first, front, initial, earlier⟩
  exact (owned_stable fresh id token).run later (owned_of_handsOut fresh sound step handed)

/-! ## Rows that are lost or done -/

/-- A row whose lease is cleared leaves its token lost. -/
private theorem lost_of_exchange {row later : Row} {rest : Multiset Row} {drawn : Nat}
    {token : LeaseToken} (sound : JobTable.Sound entropy ⟨row ::ₘ rest, drawn⟩)
    (owned : Owned entropy row.job.id token ⟨row ::ₘ rest, drawn⟩)
    (cleared : later.lease ≠ some token) : Lost entropy token ⟨later ::ₘ rest, drawn⟩ := by
  refine ⟨owned.1, ?_⟩
  intro other member held
  rcases Multiset.mem_cons.mp member with rfl | among
  · exact cleared held
  · have same := owned.2 other (Multiset.mem_cons_of_mem among) held
    have distinct := sound.ids
    rw [Multiset.map_cons, Multiset.nodup_cons] at distinct
    exact distinct.1 (same ▸ Multiset.mem_map_of_mem _ among)

/-- The job that holds a token owns it. -/
theorem JobTable.Sound.owned (sound : before.Sound entropy) {row : Row}
    (member : row ∈ before.rows) {token : LeaseToken} (held : row.lease = some token) :
    Owned entropy row.job.id token before :=
  ⟨sound.issuedTokens row member token held, fun other among also =>
    sound.tokens other among row member token also held⟩

/-- **Whatever ends a lease loses its token.** -/
theorem lost_of_ends (fresh : entropy.Fresh) {first : JobTable} {front : List (JobOp × JobAnswer)} {token : LeaseToken}
    (initial : (jobSystem bounds entropy limits).Initial first)
    (run : (jobSystem bounds entropy limits).Run first front before)
    (step : JobStep bounds entropy limits before label after)
    (ends : LeaseEnds token front before.rows after.rows label) :
    Lost entropy token after := by
  have sound : before.Sound entropy := JobTable.sound_reachable fresh ⟨first, front, initial, run⟩
  have cleared : ∀ {row later : Row} {rest : Multiset Row}, before.rows = row ::ₘ rest →
      row.lease = some token → later.lease = none →
      Lost entropy token ⟨later ::ₘ rest, before.drawn⟩ := by
    intro row later rest split held none
    have whole : JobTable.Sound entropy ⟨row ::ₘ rest, before.drawn⟩ := split ▸ sound
    refine lost_of_exchange whole (whole.owned (Multiset.mem_cons_self row rest) held) ?_
    simp [none]
  cases ends with
  | released now =>
      cases step with
      | released now split held => exact cleared split held rfl
  | failed failure nextRunAt now outcome =>
      cases step with
      | buried nextRunAt now split held => exact cleared split held rfl
      | rescheduled nextRunAt now split held => exact cleared split held rfl
  | @reclaimed row queue now lease answer member held expired gone =>
      have issued := sound.issuedTokens row member token held
      refine ⟨issued.mono step.drawn_le, ?_⟩
      intro later among again
      obtain ⟨origin, found, same, lease⟩ := step.inherits fresh later among token again issued
      have one := sound.tokens origin found row member token lease held
      exact gone later among (same.symm.trans one) again
  | @revived id earlier now claimed handed =>
      have owned := owned_of_run fresh initial run ⟨earlier, claimed, handed⟩
      cases step with
      | @revived row rest now split dead =>
          have whole : JobTable.Sound entropy ⟨row ::ₘ rest, before.drawn⟩ := split ▸ sound
          have own : Owned entropy row.job.id token ⟨row ::ₘ rest, before.drawn⟩ := split ▸ owned
          exact lost_of_exchange whole own (by simp [Row.revive])

/-- A call that presents a token no row holds is refused and changes nothing. -/
theorem refused_of_unheld {op : JobOp} {answer : JobAnswer} {token : LeaseToken}
    (unheld : ∀ row ∈ before.rows, row.lease ≠ some token) (presents : op.Presents token)
    (step : JobStep bounds entropy limits before (op, answer) after) :
    answer.LeaseRefused ∧ after = before := by
  have absurd : ∀ {row : Row} {rest : Multiset Row}, before.rows = row ::ₘ rest →
      row.lease = some token → False := by
    intro row rest split held
    exact unheld row (split ▸ Multiset.mem_cons_self row rest) held
  cases step with
  | completeRefused | failRefused | releaseRefused => exact ⟨trivial, rfl⟩
  | completed now split held | buried nextRunAt now split held
  | rescheduled nextRunAt now split held | released now split held =>
      cases presents
      exact (absurd split held).elim
  | completedAgain now member held =>
      cases presents
      exact (unheld _ member held).elim
  | _ => exact presents.elim

/-- Taking a batch of leases back leaves the completed jobs. -/
private theorem Reclaimed.completed {inQueue : QueueName → Bool} {now : Instant}
    {rows later : Multiset Row} (reclaimed : Reclaimed inQueue now rows later) {row : Row} (member : row ∈ rows)
    (done : row.job.state = .completed) : row ∈ later := by
  refine reclaimed.preserve (fun rows => row ∈ rows) (fun other rest expired among => ?_) member
  rcases Multiset.mem_cons.mp among with rfl | others
  · have leased := Row.leased_of_expired expired
    rw [done] at leased
    cases leased
  · exact Multiset.mem_cons_of_mem others

/-- **No transition changes a completed job.** -/
theorem JobStep.completed_stays (step : JobStep bounds entropy limits before label after) {row : Row}
    (member : row ∈ before.rows) (done : row.job.state = .completed) : row ∈ after.rows := by
  have other : ∀ {exchanged later : Row} {rest : Multiset Row}, row ∈ exchanged ::ₘ rest →
      exchanged.job.state ≠ .completed → row ∈ later ::ₘ rest := by
    intro exchanged later rest among open'
    rcases Multiset.mem_cons.mp among with rfl | others
    · exact (open' done).elim
    · exact Multiset.mem_cons_of_mem others
  cases step with
  | duplicate | full | enqueueEntropy | completedAgain | completeRefused | failRefused
  | releaseRefused | reviveAlive | reviveUnknown | found | foundUnread | missing | depth =>
      exact member
  | created => exact Multiset.mem_cons_of_mem member
  | idle lease reclaimed | claimEntropy lease reclaimed | claimUncountable lease reclaimed
  | claimDropped lease reclaimed =>
      exact reclaimed.completed member done
  | claimed lease reclaimed first | claimedUnread lease reclaimed first
  | claimPanicked lease reclaimed first =>
      have ready := (Row.ready_of_runnable first.runnable).1
      exact other (reclaimed.completed member done) (by simp [ready])
  | completed now split held leased | buried nextRunAt now split held leased
  | rescheduled nextRunAt now split held leased | released now split held leased =>
      exact other (split ▸ member) (by simp [leased])
  | revived now split dead => exact other (split ▸ member) (by simp [dead])

/-- A completed job stays as it is over a run, by induction on the steps. -/
theorem completed_run {first last : JobTable} {labels : List (JobOp × JobAnswer)}
    (run : (jobSystem bounds entropy limits).Run first labels last) {row : Row}
    (member : row ∈ first.rows) (done : row.job.state = .completed) : row ∈ last.rows := by
  have stable : (jobSystem bounds entropy limits).Stable fun table => row ∈ table.rows :=
    fun _ _ _ among step => step.completed_stays among done
  exact stable.run run member

/-- Where a completed job holds the token, completing again changes nothing. -/
theorem completed_again (sound : before.Sound entropy) {row : Row} {token : LeaseToken} {now : Instant}
    {answer : JobAnswer} (member : row ∈ before.rows) (done : row.job.state = .completed)
    (held : row.lease = some token)
    (step : JobStep bounds entropy limits before (.complete token now, answer) after) :
    answer = .completed (.ok .alreadyCompleted) ∧ after = before := by
  cases step with
  | completedAgain => exact ⟨rfl, rfl⟩
  | completeRefused now nothing => exact ((nothing row member held).2 done).elim
  | @completed other rest _ now split lease leased =>
      have among : other ∈ before.rows := split ▸ Multiset.mem_cons_self other rest
      have same := sound.tokens row member other among token held lease
      have one : row = other :=
        Multiset.inj_on_of_nodup_map sound.ids row member other among same
      rw [one, leased] at done
      cases done

/-! ## The discipline -/

/-- **The job table keeps the lease discipline**, and with it every store that
refines it. -/
theorem jobs_keep_discipline (bounds : JobBounds) {entropy : Entropy} (fresh : entropy.Fresh)
    (limits : RowLimits) :
    LeaseDiscipline (jobSystem bounds entropy limits) JobTable.rows where
  current reachable := by
    have sound := JobTable.sound_reachable fresh reachable
    refine ⟨sound.ids, ?_⟩
    intro row member other among token held also
    exact Multiset.inj_on_of_nodup_map sound.ids row member other among
      (sound.tokens row member other among token held also)
  ended initial earlier step ends later taken presents := by
    have lost := (lost_stable fresh _).run later (lost_of_ends fresh initial earlier step ends)
    obtain ⟨refused, same⟩ := refused_of_unheld lost.2 presents taken
    exact ⟨refused, same ▸ rfl⟩
  stays _ run row member done := completed_run run member done
  once _ _ completes run _ again := by
    obtain ⟨_, row, member, same, done⟩ := completes
    exact again.1 row (completed_run run member done) same done
  again {_ _ now _ _ _ _ _ _} reachable completes run repeated := by
    have still := JobTable.sound_reachable fresh ((reachable.step completes).run run)
    cases completes with
    | @completed row rest _ _ split held leased =>
        have member : row ∈ row ::ₘ rest := Multiset.mem_cons_self row rest
        have done : row.complete now ∈ row.complete now ::ₘ rest := Multiset.mem_cons_self _ rest
        obtain ⟨answered, same⟩ :=
          completed_again still (completed_run run done rfl) rfl held repeated
        exact ⟨⟨row, split ▸ member, leased, held, done⟩, answered, same ▸ rfl⟩
  others {first labels state row token other op answer last} initial run member done held
      different step presents := by
    have sound := JobTable.sound_reachable fresh ⟨first, labels, initial, run⟩
    have refused : (∀ holder ∈ state.rows, holder.lease ≠ some other) →
        answer.LeaseRefused ∧ last.rows = state.rows := by
      intro unheld
      obtain ⟨refused, same⟩ := refused_of_unheld unheld presents step
      exact ⟨refused, same ▸ rfl⟩
    have elsewhere : ∀ holder ∈ state.rows, holder.lease = some other →
        holder.job.id ≠ row.job.id := by
      intro holder among also same
      have one := Multiset.inj_on_of_nodup_map sound.ids holder among row member same
      rw [one, held] at also
      exact different (Option.some.inj also).symm
    constructor
    · intro handed
      have owned := owned_of_run fresh initial run handed
      exact refused fun holder among also => elsewhere holder among also (owned.2 holder among also)
    · by_cases anyone : ∃ holder ∈ state.rows, holder.lease = some other
      · obtain ⟨holder, among, also⟩ := anyone
        exact Or.inr ⟨holder, among, elsewhere holder among also, also⟩
      · exact Or.inl (refused fun holder among also => anyone ⟨holder, among, also⟩)

/-- A store that refines the job table keeps its discipline. -/
theorem LeaseDiscipline.of_refines (fresh : entropy.Fresh) {State : Type*}
    {system : TransitionSystem State (JobOp × JobAnswer)} {invariant : State → Prop}
    {abstraction : State → JobTable}
    (refines : TransitionSystem.Refinement system (jobSystem bounds entropy limits) invariant
      abstraction) : LeaseDiscipline system fun state => (abstraction state).rows := by
  have discipline := jobs_keep_discipline bounds fresh limits
  constructor
  · intro state reachable
    exact discipline.current (refines.reachable reachable).2
  · intro first front before label after suffix later op answer last token initial earlier step
      ends run taken presents
    have reached : system.Reachable before := ⟨first, front, initial, earlier⟩
    have onward := reached.step step
    exact discipline.ended (refines.initial first initial).2
      (refines.run_reachable (.initial initial) earlier) (refines.step_reachable reached step) ends
      (refines.run_reachable onward run) (refines.step_reachable (onward.run run) taken) presents
  · intro first labels last reachable run
    exact discipline.stays (refines.reachable reachable).2 (refines.run_reachable reachable run)
  · intro first label second between before again after id reachable step completes run repeated
    have onward := reachable.step step
    exact discipline.once (refines.reachable reachable).2 (refines.step_reachable reachable step)
      completes (refines.run_reachable onward run)
      (refines.step_reachable (onward.run run) repeated)
  · intro before token now after labels later since answer last reachable step run repeated
    have onward := reachable.step step
    exact discipline.again (refines.reachable reachable).2 (refines.step_reachable reachable step)
      (refines.run_reachable onward run) (refines.step_reachable (onward.run run) repeated)
  · intro first labels state row token other op answer last initial run member done held
      different step presents
    have reached : system.Reachable state := ⟨first, labels, initial, run⟩
    exact discipline.others (refines.initial first initial).2
      (refines.run_reachable (.initial initial) run) member done held different
      (refines.step_reachable reached step) presents

/-- **The in-memory store keeps the lease discipline.** It refines the table of jobs, which keeps
it; all that is asked of the entropy is that no two drawings give the same token. -/
theorem lease_discipline (bounds : JobBounds) {entropy : Entropy} (fresh : entropy.Fresh) :
    LeaseDiscipline (memorySystem bounds entropy) fun store => (store.table.rows : Multiset Row) :=
  .of_refines fresh (memory_refines bounds fresh)

/-- A released token is refused. -/
theorem released_token_refused :
    ((MemoryJobStore.empty.after .default .counting [.enqueue .receipt 0,
        .claim NewJob.receipt.queue 0 5, .release (.counted 1) 1]).run .default
      .counting (.complete (.counted 1) 2)).1.LeaseRefused := by
  have discipline := lease_discipline .default Entropy.counting_fresh
  have earlier := MemoryJobStore.run_answers .default .counting .empty
    [.enqueue .receipt 0, .claim NewJob.receipt.queue 0 5]
  have released := MemoryJobStore.step_run .default .counting
    (MemoryJobStore.empty.after .default .counting
      [.enqueue .receipt 0, .claim NewJob.receipt.queue 0 5]) (.release (.counted 1) 1)
  have completed := MemoryJobStore.step_run .default .counting
    (MemoryJobStore.empty.after .default .counting [.enqueue .receipt 0,
      .claim NewJob.receipt.queue 0 5, .release (.counted 1) 1]) (.complete (.counted 1) 2)
  have presents : (JobOp.complete (.counted 1) 2).Presents (.counted 1) := rfl
  exact (discipline.ended rfl earlier released (.released 1) .refl completed presents).1

end Renvor
