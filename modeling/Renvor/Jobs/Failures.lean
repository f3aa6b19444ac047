import Renvor.Jobs.Agreement

/-! # A call that fails changes no job

A statement that fails changes nothing, and a transaction that stops early is
lost. A claim reads its row back after the commit, though, and a call that finds
two leased rows under one token has changed both before it says so. Elsewhere a
call that fails leaves every job as it was, apart from the expired leases a claim
takes back first (`Renvor.failed_call_changes_no_job`).
-/

namespace Renvor

open Foundation

/-- A job's state, attempts, run time and lease. -/
def JobRow.standing (row : JobRow) :
    List Byte × Int × Int × Instant × Option (List Byte) × Option Instant :=
  (row.id, row.state, row.attempts, row.runAt, row.leaseToken, row.leaseExpiresAt)

namespace JobTables

/-- No job stands otherwise than before. -/
def Stands (before after : JobTables) : Prop :=
  after.jobs.map JobRow.standing = before.jobs.map JobRow.standing

/-- The tables with expired leases taken back. -/
def reclaimed (engine : SqlEngine) (queue : String) (now : Instant) (tables : JobTables) :
    JobTables :=
  match reclaim engine queue now tables with
  | .ok (_, after) => after
  | .error _ => tables

/-- Other jobs, the same queues. -/
abbrev withJobs (tables : JobTables) (jobs : List JobRow) : JobTables := { tables with jobs }

/-- How many leased rows a token is on. -/
def holders (token : LeaseToken) (tables : JobTables) : Nat :=
  (tables.jobs.filter fun row => row.leaseToken = some token.bytes && row.state = 1).length

/-- How many dead rows an identifier is on. -/
def graves (id : JobId) (tables : JobTables) : Nat :=
  (tables.jobs.filter fun row => row.id = id.bytes && row.state = 3).length

end JobTables

/-- The error of a result. -/
def errorOf {α : Type} : Except JobError α → Option JobError
  | .error error => some error
  | .ok _ => none

/-- The error of a result is there where the result is that error. -/
theorem errorOf_eq_some {α : Type} {result : Except JobError α} {error : JobError} :
    errorOf result = some error ↔ result = .error error := by
  cases result <;> simp [errorOf]

/-- The error a call was answered with; a call that panics is not answered. -/
def JobAnswer.error? : JobAnswer → Option JobError
  | .enqueued result => errorOf result
  | .claimed result => errorOf result
  | .panicked => none
  | .completed result => errorOf result
  | .failed result => errorOf result
  | .released result => errorOf result
  | .revived result => errorOf result
  | .found result => errorOf result
  | .counted result => errorOf result

/-- A claim is answered with the error that it came to. -/
theorem JobAnswer.error?_ofClaim (result : Except JobError ClaimEnd) :
    (ofClaim result).error? = errorOf result := by
  obtain _ | _ | _ := result <;> rfl

/-- Two bytes of payload for stores that hold one. -/
def NewJob.oversized : NewJob := { NewJob.receipt with payload := ⟨[.zero, .zero], by decide⟩ }

namespace SqlxJobStore

variable (engine : SqlEngine) (bounds : JobBounds) (entropy : Entropy)

/-- No job stands otherwise than before, apart from the expired leases that a
claim takes back. -/
def Untouched (before after : JobTables) : JobOp → Prop
  | .claim queue now _ => before.Stands after ∨
      (before.reclaimed engine queue.text now).Stands after
  | _ => before.Stands after

/-- A claim leases a row that does not read back. -/
structure LeasesUnreadable (faults : Nat → Option DatabaseErrorKind) (store : SqlxJobStore)
    (queue : QueueName) (now : Instant) (lease : Nat) : Prop where
  works : ∀ number < 5, faults number = none
  drawn : (entropy store.drawn).isSome
  lasts : now + lease ≤ systemTimeMax
  unreadable : ∃ row error,
    JobTables.oldestRunnable engine queue.text now
        (store.tables.reclaimed engine queue.text now) =
      .ok (some row, store.tables.reclaimed engine queue.text now) ∧
    row.attempts + 1 ≤ i32Max ∧ jobFromRow row bounds = .error error

/-- A call fails after what it changed was committed. -/
def Spoils (faults : Nat → Option DatabaseErrorKind) (store : SqlxJobStore) : JobOp → Prop
  | .claim queue now lease => LeasesUnreadable engine bounds entropy faults store queue now lease
  | .complete lease _ => faults 0 = none ∧ 2 ≤ store.tables.holders lease ∧
      (faults 1 ≠ none ∨ ∃ row,
        (store.tables.jobs.find? fun row => row.leaseToken = some lease.bytes) = some row ∧
          row.state ≠ 1 ∧ row.state ≠ 2)
  | .release lease _ => faults 0 = none ∧ 2 ≤ store.tables.holders lease
  | _ => False

/-! ## Calls that stop before they commit -/

section Stops

variable {faults : Nat → Option DatabaseErrorKind} {α : Type}

/-- A call that fails has committed no change to a job. -/
def Careful (tables : JobTables) (result : Except JobError α)
    (after : Session JobTables Nat) : Prop :=
  ∀ error, result = .error error → after.committed.jobs = tables.jobs

/-- A call that succeeds has nothing to be careful of. -/
theorem Careful.ok (tables : JobTables) (value : α) (after : Session JobTables Nat) :
    Careful tables (.ok value) after := by
  rintro error ⟨⟩

/-- A call that left the jobs as they were has been careful. -/
theorem Careful.kept {tables : JobTables} {after : Session JobTables Nat}
    (same : after.committed.jobs = tables.jobs) (result : Except JobError α) :
    Careful tables result after := fun _ _ => same

/-- A commit at the end is careful, provided that nothing was committed before it. -/
theorem commit_careful {explain : DatabaseErrorKind → JobError} {tables : JobTables}
    {session : Session JobTables Nat} (same : session.committed.jobs = tables.jobs) (value : α) :
    Client.Leads faults (do Client.commit explain; return value) session (Careful tables) :=
  .bind <| .commit (fun _ _ => .kept same _) fun _ => .ok tables value _

/-- Looking a key up commits nothing, whatever it answers. -/
theorem existingForKey_any {queue : QueueName} {key : IdempotencyKey}
    {session : Session JobTables Nat}
    {post : Except JobError (Option JobId) → Session JobTables Nat → Prop}
    (any : ∀ result after, after.committed = session.committed → post result after) :
    Client.Leads faults (existingForKey engine queue key) session post := by
  refine .bind <| .autocommit_any (fun _ _ does => (Prod.mk.inj (Except.ok.inj does)).2.symm)
    fun result after same => ?_
  obtain _ | _ | bytes := result
  · exact any _ _ same
  · exact any _ _ same
  · refine .bind ?_
    cases sixteen bytes <;> exact any _ _ same

/-- Drawing touches no tables, and fails where the source is empty. -/
theorem draw_leads {session : Session JobTables Nat}
    {post : Except JobError Sixteen → Session JobTables Nat → Prop}
    (empty : entropy session.own = none →
      post (.error .entropyUnavailable) { session with own := session.own + 1 })
    (given : ∀ bytes, entropy session.own = some bytes →
      post (.ok bytes) { session with own := session.own + 1 }) :
    Client.Leads faults (draw entropy) session post := by
  unfold Client.Leads draw
  rw [Client.keep_apply]
  cases drawn : entropy session.own with
  | none => exact empty drawn
  | some bytes => exact given bytes drawn

/-- Enqueueing after the key was looked up is careful. -/
theorem enqueueCounted_careful {tables : JobTables} {session : Session JobTables Nat}
    (same : session.committed.jobs = tables.jobs) (job : NewJob) (now : Instant) :
    Client.Leads faults (enqueueCounted engine bounds entropy job now) session
      (Careful tables) := by
  refine .bind <| .query_any fun result counted kept => ?_
  cases result with
  | error error => exact .kept (kept ▸ same) _
  | ok depth =>
      have still : counted.committed.jobs = tables.jobs := kept ▸ same
      show Client.Leads faults (if depth ≥ bounds.maxQueueDepth then _ else _) counted _
      split
      · exact .kept still _
      refine .bind <| draw_leads entropy (fun _ => .kept still _) fun id _ => ?_
      refine .bind <| .attempt_any fun outcome inserted unchanged => ?_
      have unmoved : inserted.committed.jobs = tables.jobs := unchanged ▸ still
      cases outcome with
      | ok _ => exact commit_careful unmoved _
      | error kind =>
          dsimp only
          split
          · refine .bind <| existingForKey_any engine fun result after same => ?_
            obtain _ | _ | existing := result <;> exact .kept (same ▸ unmoved) _
          · exact .kept unmoved _

/-- Enqueueing is careful, wherever it fails. -/
theorem enqueue_careful (tables : JobTables) (drawn : Nat) (job : NewJob) (now : Instant) :
    Client.Leads faults (enqueue engine bounds entropy job now) (.start tables drawn)
      (Careful tables) := by
  refine .bind <| .autocommit rfl (fun _ _ => .kept rfl _) fun _ => ?_
  refine .bind <| .begin_any fun result opened same => ?_
  have kept : opened.committed.jobs = tables.jobs := by
    rw [same]
    show (if _ then tables else _ : JobTables).jobs = _
    split <;> rfl
  cases result with
  | error error => exact .kept kept _
  | ok _ =>
      refine .bind <| .query_any fun result locked same => ?_
      have held : locked.committed.jobs = tables.jobs := same ▸ kept
      cases result with
      | error error => exact .kept held _
      | ok _ =>
          dsimp only
          cases job.idempotencyKey with
          | none => exact enqueueCounted_careful engine bounds entropy held job now
          | some key =>
              refine .bind <| .query_any fun result found same => ?_
              have still : found.committed.jobs = tables.jobs := same ▸ held
              obtain _ | _ | bytes := result
              · exact .kept still _
              · exact enqueueCounted_careful engine bounds entropy still job now
              · refine .bind ?_
                cases sixteen bytes <;> exact .kept still _

/-- Recording a failure is careful, wherever it fails. -/
theorem fail_careful (tables : JobTables) (drawn : Nat) (lease : LeaseToken) (failure : FailureKind)
    (nextRunAt now : Instant) :
    Client.Leads faults (fail lease failure nextRunAt now) (.start tables drawn)
      (Careful tables) := by
  refine .bind <| .begin_any fun result opened same => ?_
  have kept : opened.committed.jobs = tables.jobs := congrArg JobTables.jobs same
  cases result with
  | error error => exact .kept kept _
  | ok _ =>
      refine .bind <| .query_any fun result held same => ?_
      have still : held.committed.jobs = tables.jobs := same ▸ kept
      obtain _ | _ | ⟨id, attempts, maxAttempts⟩ := result
      · exact .kept still _
      · exact .kept still _
      · refine .bind <| .query_any fun result changed same => ?_
        have unmoved : changed.committed.jobs = tables.jobs := same ▸ still
        cases result with
        | error error => exact .kept unmoved _
        | ok affected =>
            dsimp only
            split
            · exact .kept unmoved _
            · exact commit_careful unmoved _

/-- A statement that changes no row leaves the tables alone. -/
theorem update_zero {matched : JobRow → Bool} {change : JobRow → JobRow} {tables : JobTables}
    (none : (tables.jobs.filter matched).length = 0) :
    ({ tables with jobs := updateWhere matched change tables.jobs } : JobTables) = tables := by
  rw [updateWhere_none]
  intro row member
  by_contra hit
  have found : row ∈ tables.jobs.filter matched :=
    List.mem_filter.mpr ⟨member, by simpa using hit⟩
  rw [List.length_eq_zero_iff.mp none] at found
  cases found

/-- Releasing is careful, unless the statement that releases finds two jobs under the token. -/
theorem release_careful (tables : JobTables) (drawn : Nat) (lease : LeaseToken) (now : Instant)
    (few : ¬ (faults 0 = none ∧ 2 ≤ tables.holders lease)) :
    Client.Leads faults (release lease now) (.start tables drawn) (Careful tables) := by
  refine .bind <| .autocommit rfl (fun _ _ => .kept rfl _) fun works => ?_
  have held : ¬ 2 ≤ tables.holders lease := fun many => few ⟨works, many⟩
  by_cases one : tables.holders lease = 1
  · show Client.Leads faults (if tables.holders lease = 1 then _ else _) _ _
    rw [if_pos one]
    exact .ok tables () _
  · show Client.Leads faults (if tables.holders lease = 1 then _ else _) _ _
    rw [if_neg one]
    refine .kept (congrArg JobTables.jobs (update_zero ?_)) _
    show tables.holders lease = 0
    omega

/-- Reviving is careful where no two jobs have one identifier. -/
theorem revive_careful (tables : JobTables) (drawn : Nat)
    (keyed : (tables.jobs.map JobRow.id).Nodup) (id : JobId) (now : Instant) :
    Client.Leads faults (revive id now) (.start tables drawn) (Careful tables) := by
  refine .bind <| .autocommit rfl (fun _ _ => .kept rfl _) fun works => ?_
  have few : tables.graves id ≤ 1 :=
    length_filter_le_one keyed fun row hit => of_decide_eq_true (Bool.and_eq_true _ _ ▸ hit).1
  by_cases one : tables.graves id = 1
  · show Client.Leads faults (if tables.graves id = 1 then _ else _) _ _
    rw [if_pos one]
    exact .ok tables true _
  · show Client.Leads faults (if tables.graves id = 1 then _ else _) _ _
    rw [if_neg one]
    refine .bind <| .autocommit_any
      (fun _ _ does => (Prod.mk.inj (Except.ok.inj does)).2.symm) fun result after same => ?_
    have kept : after.committed.jobs = tables.jobs := by
      rw [same]
      refine congrArg JobTables.jobs (update_zero ?_)
      show tables.graves id = 0
      omega
    cases result with
    | error error => exact .kept kept _
    | ok count =>
        dsimp only
        split <;> exact .kept kept _

/-- Reading is careful, since it writes nothing. -/
theorem read_careful (tables : JobTables) (drawn : Nat) (id : JobId) :
    Client.Leads faults (read bounds id) (.start tables drawn) (Careful tables) := by
  refine .bind <| .autocommit_any
    (fun _ _ does => (Prod.mk.inj (Except.ok.inj does)).2.symm) fun result after same => ?_
  have kept : after.committed.jobs = tables.jobs := congrArg JobTables.jobs same
  obtain _ | _ | row := result
  · exact .kept kept _
  · exact .kept kept _
  · refine .bind ?_
    cases jobFromRow row bounds <;> exact .kept kept _

/-- Counting a queue is careful, since it writes nothing. -/
theorem depth_careful (tables : JobTables) (drawn : Nat) (queue : QueueName) :
    Client.Leads faults (depth engine queue) (.start tables drawn) (Careful tables) :=
  .autocommit_any (fun _ _ does => (Prod.mk.inj (Except.ok.inj does)).2.symm)
    fun _ _ same => .kept (congrArg JobTables.jobs same) _

/-- What the row first found under a token says after it was completed. -/
theorem stateForLease_completed (tables : JobTables) (lease : LeaseToken) (now : Instant) :
    ((updateWhere (fun row => row.leaseToken = some lease.bytes && row.state = 1)
        (fun row : JobRow => { row with state := 2, completedAt := some now, updatedAt := now })
        tables.jobs).find? fun row => row.leaseToken = some lease.bytes).map JobRow.state =
      (tables.jobs.find? fun row => row.leaseToken = some lease.bytes).map fun row =>
        if row.state = 1 then 2 else row.state := by
  unfold updateWhere
  rw [List.find?_map, Option.map_map]
  have same : ((fun row : JobRow => decide (row.leaseToken = some lease.bytes)) ∘ fun row =>
      if (row.leaseToken = some lease.bytes && row.state = 1) = true then
        { row with state := 2, completedAt := some now, updatedAt := now } else row) =
      fun row => decide (row.leaseToken = some lease.bytes) := by
    funext row
    dsimp only [Function.comp_apply]
    split <;> rfl
  rw [same]
  cases found : tables.jobs.find? fun row => row.leaseToken = some lease.bytes with
  | none => rfl
  | some row =>
      have held : decide (row.leaseToken = some lease.bytes) = true := by
        simpa using List.find?_some found
      dsimp only [Option.map_some, Function.comp_apply]
      by_cases leased : row.state = 1
      · rw [if_pos (Bool.and_eq_true_iff.mpr ⟨held, decide_eq_true leased⟩), if_pos leased]
      · have other : ¬ (decide (row.leaseToken = some lease.bytes) && decide (row.state = 1)) = true :=
          fun both => leased (of_decide_eq_true (Bool.and_eq_true_iff.mp both).2)
        rw [if_neg other, if_neg leased]

/-- Completing is careful, unless the statement that completes finds two jobs under the token and
what follows it fails. -/
theorem complete_careful (tables : JobTables) (drawn : Nat) (lease : LeaseToken) (now : Instant)
    (few : ¬ (faults 0 = none ∧ 2 ≤ tables.holders lease ∧
      (faults 1 ≠ none ∨ ∃ row,
        (tables.jobs.find? fun row => row.leaseToken = some lease.bytes) = some row ∧
          row.state ≠ 1 ∧ row.state ≠ 2))) :
    Client.Leads faults (complete lease now) (.start tables drawn) (Careful tables) := by
  refine .bind <| .autocommit rfl (fun _ _ => .kept rfl _) fun works => ?_
  by_cases one : tables.holders lease = 1
  · show Client.Leads faults (if tables.holders lease = 1 then _ else _) _ _
    rw [if_pos one]
    exact .ok tables _ _
  show Client.Leads faults (if tables.holders lease = 1 then _ else _) _ _
  rw [if_neg one]
  by_cases none : tables.holders lease = 0
  · refine .bind <| .autocommit_any
      (fun _ _ does => (Prod.mk.inj (Except.ok.inj does)).2.symm) fun result after same => ?_
    have kept : after.committed.jobs = tables.jobs := by
      rw [same]
      exact congrArg JobTables.jobs (update_zero none)
    cases result with
    | error error => exact .kept kept _
    | ok state =>
        dsimp only
        split <;> exact .kept kept _
  · -- two or more rows were completed, and the first of them says so
    have many : 2 ≤ tables.holders lease := by omega
    have second : faults 1 = Option.none := by
      by_contra fails
      exact few ⟨works, many, .inl fails⟩
    obtain ⟨held, member⟩ := List.exists_mem_of_length_pos (show 0 < tables.holders lease by omega)
    obtain ⟨listed, hit⟩ := List.mem_filter.mp member
    have token : decide (held.leaseToken = some lease.bytes) = true :=
      (Bool.and_eq_true _ _ ▸ hit).1
    have there : (tables.jobs.find? fun row => row.leaseToken = some lease.bytes).isSome :=
      List.find?_isSome.mpr ⟨held, listed, token⟩
    obtain ⟨row, found⟩ := Option.isSome_iff_exists.mp there
    have said := stateForLease_completed tables lease now
    rw [found] at said
    have state : (if row.state = 1 then 2 else row.state) = 2 := by
      by_contra other
      refine few ⟨works, many, .inr ⟨row, found, ?_, ?_⟩⟩
      · intro leased
        exact other (if_pos leased)
      · intro completed
        exact other (by simp [completed])
    rw [Option.map_some, state] at said
    refine .bind <| .autocommit (congrArg (fun state => Except.ok (state, _)) said)
      (fun fault fate => ?_) fun _ => ?_
    · cases second.symm.trans fate
    · exact .ok tables _ _

/-- The row picked to be claimed is a ready row of the table. -/
theorem oldestRunnable_mem {queue : String} {now : Instant} {tables after : JobTables}
    {row : JobRow} (found : JobTables.oldestRunnable engine queue now tables =
      .ok (some row, after)) : row ∈ tables.jobs ∧ row.state = 0 := by
  have least := (Prod.mk.inj (Except.ok.inj found)).1
  obtain ⟨listed, runs⟩ := List.mem_filter.mp (List.argmin_mem least)
  refine ⟨listed, ?_⟩
  simp only [Bool.and_eq_true, decide_eq_true_eq] at runs
  exact runs.1.2

/-- A row is leased only where its counter has room. -/
theorem attempts_of_lease {token : LeaseToken} {expiresAt now : Instant} {row : JobRow}
    {tables after : JobTables} {affected : Nat}
    (took : JobTables.lease token expiresAt now row.id tables = .ok (affected, after))
    (listed : row ∈ tables.jobs) (ready : row.state = 0) : row.attempts + 1 ≤ i32Max := by
  by_contra full
  have rejected : (tables.jobs.any fun other => (other.id = row.id && other.state = 0) &&
      other.attempts + 1 > i32Max) = true := by
    refine List.any_eq_true.mpr ⟨row, listed, ?_⟩
    simpa [ready] using full
  unfold JobTables.lease at took
  dsimp only at took
  rw [if_pos rejected] at took
  cases took

/-- A claim that fails leaves the tables, or what was reclaimed, unless it leased a job that it
cannot read. -/
theorem claim_careful (store : SqlxJobStore) (queue : QueueName) (now : Instant) (lease : Nat) :
    Client.Leads faults (claim engine bounds entropy queue now lease)
      (.start store.tables store.drawn) fun result after => ∀ error, result = .error error →
        (after.committed = store.tables ∨
          after.committed = store.tables.reclaimed engine queue.text now) ∨
        LeasesUnreadable engine bounds entropy faults store queue now lease := by
  refine .bind <| .autocommit rfl (fun _ _ _ _ => .inl (.inl rfl)) fun first => ?_
  refine .bind <| .begin (fun _ _ _ _ => .inl (.inr rfl)) fun second => ?_
  obtain ⟨holder, does⟩ : ∃ holder, JobTables.oldestRunnable engine queue.text now
      (store.tables.reclaimed engine queue.text now) =
        .ok (holder, store.tables.reclaimed engine queue.text now) := ⟨_, rfl⟩
  refine .bind <| .query does (fun _ _ _ _ => .inl (.inr rfl)) fun third => ?_
  cases holder with
  | none =>
      refine .bind <| .commit (fun _ _ _ _ => .inl (.inr rfl)) fun _ => ?_
      rintro error ⟨⟩
  | some row =>
      refine .bind <| draw_leads entropy (fun _ _ _ => .inl (.inr rfl)) fun token drawn => ?_
      dsimp only
      cases ends : leaseEnd now lease with
      | none => rintro error ⟨⟩
      | some expiresAt =>
          obtain ⟨lasts, rfl⟩ := leaseEnd_eq_some.mp ends
          refine .bind <| .query_cases (fun _ _ same _ _ => .inl (.inr same))
            fun affected leased fourth took => ?_
          by_cases one : affected ≠ 1
          · dsimp only
            rw [if_pos one]
            refine .bind <| .rollback_any fun result after same => ?_
            cases result with
            | error error => exact fun _ _ => .inl (.inr same)
            | ok _ => rintro error ⟨⟩
          · dsimp only
            rw [if_neg one]
            refine .bind <| .commit (fun _ _ _ _ => .inl (.inr rfl)) fun fifth => ?_
            refine .bind ?_
            cases reads : jobFromRow row bounds with
            | ok job => rintro error ⟨⟩
            | error error =>
                intro _ _
                refine .inr ⟨?_, ?_, lasts, row, error, does, ?_, reads⟩
                · exact fun number below => match number, below with
                    | 0, _ => first
                    | 1, _ => second
                    | 2, _ => third
                    | 3, _ => fourth
                    | 4, _ => fifth
                · rw [Option.isSome_iff_exists]
                  exact ⟨token, drawn⟩
                · obtain ⟨listed, ready⟩ := oldestRunnable_mem engine does
                  exact attempts_of_lease took listed ready

/-! ## Calls that fail after they committed -/

/-- Where leased rows are leased no more, a job stands otherwise. -/
theorem not_stands_of_ended {tables : JobTables} {matched : JobRow → Bool}
    {change : JobRow → JobRow} {row : JobRow} (listed : row ∈ tables.jobs)
    (hit : matched row = true) (leased : ∀ row, matched row = true → row.state = 1)
    (ended : ∀ row, (change row).state ≠ 1) :
    ¬ tables.Stands (tables.withJobs (updateWhere matched change tables.jobs)) := by
  intro stands
  have counted := congrArg (countOf fun standing => standing.2.1 = 1) stands
  rw [countOf_map, countOf_map] at counted
  unfold updateWhere at counted
  rw [countOf_map] at counted
  refine Nat.ne_of_lt (countOf_lt (fun other _ still => ?_) listed (leased row hit) ?_) counted
  · by_cases matches' : matched other = true
    · exact leased other matches'
    · rwa [if_neg matches'] at still
  · rw [if_pos hit]
    exact ended row

/-- Where the token is on two leased jobs it is on one. -/
theorem exists_holder {tables : JobTables} {lease : LeaseToken}
    (many : 2 ≤ tables.holders lease) : ∃ row ∈ tables.jobs,
      (row.leaseToken = some lease.bytes && row.state = 1) = true := by
  obtain ⟨row, member⟩ := List.exists_mem_of_length_pos (show 0 < tables.holders lease by omega)
  exact ⟨row, List.mem_filter.mp member⟩

/-- A row that holds the token as a lease is leased. -/
theorem state_of_holder {lease : LeaseToken} (row : JobRow)
    (hit : (row.leaseToken = some lease.bytes && row.state = 1) = true) : row.state = 1 :=
  of_decide_eq_true (Bool.and_eq_true_iff.mp hit).2

/-- Releasing a token that two jobs hold fails, and has changed them all the same. -/
theorem release_spoils {tables : JobTables} (drawn : Nat) {lease : LeaseToken} (now : Instant)
    (works : faults 0 = none) (many : 2 ≤ tables.holders lease) :
    Client.Leads faults (release lease now) (.start tables drawn) fun result after =>
      (∃ error, result = .error error) ∧ ¬ tables.Stands after.committed := by
  refine .bind <| .autocommit rfl (fun _ fate => ?_) fun _ => ?_
  · cases works.symm.trans fate
  show Client.Leads faults (if tables.holders lease = 1 then _ else _) _ _
  rw [if_neg (by omega)]
  obtain ⟨row, listed, hit⟩ := exists_holder many
  exact ⟨⟨_, rfl⟩, not_stands_of_ended listed hit state_of_holder fun row held => by cases held⟩

/-- Completing a token that two jobs hold has changed them, and fails where the state cannot be
read. -/
theorem complete_spoils {tables : JobTables} (drawn : Nat) {lease : LeaseToken} (now : Instant)
    (works : faults 0 = none) (many : 2 ≤ tables.holders lease)
    (misses : faults 1 ≠ none ∨ ∃ row,
      (tables.jobs.find? fun row => row.leaseToken = some lease.bytes) = some row ∧
        row.state ≠ 1 ∧ row.state ≠ 2) :
    Client.Leads faults (complete lease now) (.start tables drawn) fun result after =>
      (∃ error, result = .error error) ∧ ¬ tables.Stands after.committed := by
  refine .bind <| .autocommit rfl (fun _ fate => ?_) fun _ => ?_
  · cases works.symm.trans fate
  show Client.Leads faults (if tables.holders lease = 1 then _ else _) _ _
  rw [if_neg (by omega)]
  obtain ⟨held, listed, hit⟩ := exists_holder many
  have changed : ¬ tables.Stands (tables.withJobs
      (updateWhere (fun row => row.leaseToken = some lease.bytes && row.state = 1)
        (fun row => { row with state := 2, completedAt := some now, updatedAt := now })
        tables.jobs)) :=
    not_stands_of_ended listed hit state_of_holder fun row held => by cases held
  obtain fails | ⟨row, found, unleased, uncompleted⟩ := misses
  · exact .bind <| .autocommit rfl (fun _ _ => ⟨⟨_, rfl⟩, changed⟩) fun fate => (fails fate).elim
  have said := stateForLease_completed tables lease now
  rw [found, Option.map_some, if_neg unleased] at said
  refine .bind <| .autocommit (congrArg (fun state => Except.ok (state, _)) said)
    (fun _ _ => ⟨⟨_, rfl⟩, changed⟩) fun _ => ?_
  dsimp only
  split
  · next completed => exact (uncompleted (Option.some.inj completed)).elim
  · exact ⟨⟨_, rfl⟩, changed⟩

/-- A row's identifier and attempts. -/
def ledger (row : JobRow) : List Byte × Int := (row.id, row.attempts)

/-- Reclaiming leaves the ledger of every job alone. -/
theorem ledger_reclaimed (queue : String) (now : Instant) (tables : JobTables) :
    (tables.reclaimed engine queue now).jobs.map ledger = tables.jobs.map ledger := by
  unfold JobTables.reclaimed JobTables.reclaim
  dsimp only
  exact map_updateFirst (by intro _ _; rfl) _ _

/-- Jobs that stand as they were have the ledgers they had. -/
theorem ledger_of_stands {before after : JobTables} (stands : before.Stands after) :
    after.jobs.map ledger = before.jobs.map ledger := by
  have mapped := congrArg (List.map fun standing => (standing.1, standing.2.2.1)) stands
  rwa [List.map_map, List.map_map] at mapped

/-- What a lease leaves of a row. -/
def leasedRow (token : LeaseToken) (expiresAt now : Instant) (row : JobRow) : JobRow :=
  { row with
    state := 1
    attempts := row.attempts + 1
    leaseToken := some token.bytes
    leaseExpiresAt := some expiresAt
    updatedAt := now }

/-- A ready row whose counter has room is leased. -/
theorem lease_takes {tables : JobTables} (keyed : (tables.jobs.map JobRow.id).Nodup)
    {row : JobRow} (listed : row ∈ tables.jobs) (ready : row.state = 0)
    (room : row.attempts + 1 ≤ i32Max) (token : LeaseToken) (expiresAt now : Instant) :
    JobTables.lease token expiresAt now row.id tables = .ok (1, tables.withJobs
      (updateWhere (fun other => other.id = row.id && other.state = 0)
        (leasedRow token expiresAt now) tables.jobs)) := by
  have only : ∀ other ∈ tables.jobs, other.id = row.id → other = row := fun other member same =>
    eq_of_key keyed member listed same
  have rejected : ¬ (tables.jobs.any fun other => (other.id = row.id && other.state = 0) &&
      other.attempts + 1 > i32Max) = true := by
    intro any
    obtain ⟨other, member, full⟩ := List.any_eq_true.mp any
    simp only [Bool.and_eq_true, decide_eq_true_eq] at full
    obtain rfl := only other member full.1.1
    exact not_lt_of_ge room full.2
  have one : (tables.jobs.filter fun other => other.id = row.id && other.state = 0).length = 1 := by
    refine le_antisymm (length_filter_le_one keyed fun other hit =>
      of_decide_eq_true (Bool.and_eq_true_iff.mp hit).1) (List.length_pos_of_mem (a := row) ?_)
    exact List.mem_filter.mpr ⟨listed, by simp [ready]⟩
  unfold JobTables.lease
  dsimp only
  rw [if_neg rejected]
  exact congrArg (fun count => Except.ok (count, _)) one

/-- A leased row has an attempt more. -/
theorem not_stands_of_leased {before tables : JobTables}
    (keyed : (tables.jobs.map JobRow.id).Nodup) (same : tables.jobs.map ledger = before.jobs.map ledger)
    {row : JobRow} (listed : row ∈ tables.jobs) (ready : row.state = 0) (token : LeaseToken)
    (expiresAt now : Instant) : ¬ before.Stands (tables.withJobs
      (updateWhere (fun other => other.id = row.id && other.state = 0)
        (leasedRow token expiresAt now) tables.jobs)) := by
  intro stands
  have ledgers := (ledger_of_stands stands).trans same.symm
  have leased : leasedRow token expiresAt now row ∈
      updateWhere (fun other => other.id = row.id && other.state = 0)
        (leasedRow token expiresAt now) tables.jobs :=
    mem_updateWhere.mpr (.inl ⟨row, listed, by simp [ready], rfl⟩)
  have counted : ledger (leasedRow token expiresAt now row) ∈ tables.jobs.map ledger :=
    ledgers ▸ List.mem_map_of_mem leased
  obtain ⟨other, member, equal⟩ := List.mem_map.mp counted
  have identifier : other.id = row.id := congrArg Prod.fst equal
  obtain rfl := eq_of_key keyed member listed identifier
  have attempts : other.attempts = other.attempts + 1 := congrArg Prod.snd equal
  omega

/-- A claim that leased a job which it cannot read fails, and has changed that job. -/
theorem claim_spoils {store : SqlxJobStore} (keyed : (store.tables.jobs.map JobRow.id).Nodup)
    {queue : QueueName} {now : Instant} {lease : Nat}
    (leases : LeasesUnreadable engine bounds entropy faults store queue now lease) :
    Client.Leads faults (claim engine bounds entropy queue now lease)
      (.start store.tables store.drawn) fun result after => (∃ error, result = .error error) ∧
        ¬ Untouched engine store.tables after.committed (.claim queue now lease) := by
  obtain ⟨works, drawn, lasts, row, error, found, room, unreadable⟩ := leases
  obtain ⟨token, given⟩ := Option.isSome_iff_exists.mp drawn
  obtain ⟨listed, ready⟩ := oldestRunnable_mem engine found
  have ledgers := ledger_reclaimed engine queue.text now store.tables
  have distinct : ((store.tables.reclaimed engine queue.text now).jobs.map JobRow.id).Nodup := by
    have ids := congrArg (List.map Prod.fst) ledgers
    rw [List.map_map, List.map_map] at ids
    exact ids ▸ keyed
  have takes := lease_takes distinct listed ready room token (now + lease) now
  refine .bind <| .autocommit rfl (fun _ fate => ?_) fun _ => ?_
  · cases (works 0 (by omega)).symm.trans fate
  refine .bind <| .begin (fun _ fate => ?_) fun _ => ?_
  · cases (works 1 (by omega)).symm.trans fate
  refine .bind <| .query found (fun _ fate => ?_) fun _ => ?_
  · cases (works 2 (by omega)).symm.trans fate
  refine .bind <| draw_leads entropy (fun empty => ?_) fun bytes drew => ?_
  · cases given.symm.trans empty
  obtain rfl : token = bytes := Option.some.inj (given.symm.trans drew)
  have ends := leaseEnd_eq_some.mpr ⟨lasts, rfl⟩
  dsimp only
  rw [ends]
  refine .bind <| .query takes (fun _ fate => ?_) fun _ => ?_
  · cases (works 3 (by omega)).symm.trans fate
  dsimp only
  rw [if_neg (fun different => different rfl)]
  refine .bind <| .commit (fun _ fate => ?_) fun _ => ?_
  · cases (works 4 (by omega)).symm.trans fate
  refine .bind ?_
  rw [unreadable]
  refine ⟨⟨error, rfl⟩, ?_⟩
  rintro (stands | stands)
  · exact not_stands_of_leased distinct ledgers listed ready token (now + lease) now stands
  · exact not_stands_of_leased distinct rfl listed ready token (now + lease) now stands

end Stops

/-- Where a careful call fails, the jobs stand as they were. -/
theorem Careful.untouched {α : Type} {tables : JobTables} {result : Except JobError α}
    {after : Session JobTables Nat} (careful : Careful tables result after) {error : JobError}
    (failed : errorOf result = some error) : tables.Stands after.committed :=
  congrArg (List.map JobRow.standing) (careful error (errorOf_eq_some.mp failed))

/-- **A call that fails changes no job**, apart from the expired leases a claim
takes back, exactly where a claim leases no row that does not read back and no
token is on two leased rows that the call ends. -/
theorem failed_call_changes_no_job (faults : Nat → Option DatabaseErrorKind)
    (store : SqlxJobStore) (keyed : (store.tables.jobs.map JobRow.id).Nodup) (op : JobOp) :
    (∀ error, (store.run engine bounds entropy faults op).1.error? = some error →
      Untouched engine store.tables (store.run engine bounds entropy faults op).2.tables op) ↔
        ¬ Spoils engine bounds entropy faults store op := by
  cases op with
  | enqueue job now =>
      refine ⟨fun _ => id, fun _ error failed => ?_⟩
      exact (enqueue_careful engine bounds entropy store.tables store.drawn job now).untouched failed
  | claim queue now lease =>
      constructor
      · intro untouched spoils
        obtain ⟨⟨error, failed⟩, changed⟩ := claim_spoils engine bounds entropy keyed spoils
        refine changed (untouched error ?_)
        exact (JobAnswer.error?_ofClaim _).trans (errorOf_eq_some.mpr failed)
      · intro reads error failed
        obtain (same | same) | leases := claim_careful engine bounds entropy store queue now lease
          error (errorOf_eq_some.mp ((JobAnswer.error?_ofClaim _).symm.trans failed))
        · exact .inl (congrArg (fun tables : JobTables => tables.jobs.map JobRow.standing) same)
        · exact .inr (congrArg (fun tables : JobTables => tables.jobs.map JobRow.standing) same)
        · exact (reads leases).elim
  | complete lease now =>
      constructor
      · rintro untouched ⟨works, many, misses⟩
        obtain ⟨⟨error, failed⟩, changed⟩ := complete_spoils store.drawn now works many misses
        exact changed (untouched error (errorOf_eq_some.mpr failed))
      · intro few error failed
        exact (complete_careful store.tables store.drawn lease now few).untouched failed
  | fail lease failure nextRunAt now =>
      refine ⟨fun _ => id, fun _ error failed => ?_⟩
      exact (fail_careful store.tables store.drawn lease failure nextRunAt now).untouched failed
  | release lease now =>
      constructor
      · rintro untouched ⟨works, many⟩
        obtain ⟨⟨error, failed⟩, changed⟩ := release_spoils store.drawn now works many
        exact changed (untouched error (errorOf_eq_some.mpr failed))
      · intro few error failed
        exact (release_careful store.tables store.drawn lease now few).untouched failed
  | revive id now =>
      refine ⟨fun _ => fun impossible => impossible, fun _ error failed => ?_⟩
      exact (revive_careful store.tables store.drawn keyed id now).untouched failed
  | read id =>
      refine ⟨fun _ => fun impossible => impossible, fun _ error failed => ?_⟩
      exact (read_careful bounds store.tables store.drawn id).untouched failed
  | depth queue =>
      refine ⟨fun _ => fun impossible => impossible, fun _ error failed => ?_⟩
      exact (depth_careful engine store.tables store.drawn queue).untouched failed

/-- A store with one job, of two bytes. -/
def oversized : SqlxJobStore := empty.after .bytewise .default .counting [.enqueue .oversized 0]

/-- A claim whose commit fails leaves the job ready. -/
theorem failed_commit_changes_no_job :
    Untouched .bytewise oversized.tables
      (oversized.run .bytewise .default .counting
        (fun number => if number = 4 then some .commitFailed else none)
        (.claim NewJob.oversized.queue 0 5)).2.tables (.claim NewJob.oversized.queue 0 5) := by
  refine (failed_call_changes_no_job .bytewise .default .counting _ oversized ?_ _).mpr ?_
    .unavailable ?_
  · exact List.nodup_singleton _
  · intro leases
    cases leases.works 4 (by decide)
  · with_unfolding_all rfl

/-- A claim of a job written under wider bounds fails, and leases it. -/
theorem unreadable_claim_leases :
    ¬ ∀ error, (oversized.run .bytewise ⟨1, 1, by decide, by decide⟩ .counting Client.quiet
        (.claim NewJob.oversized.queue 0 5)).1.error? = some error →
      Untouched .bytewise oversized.tables
        (oversized.run .bytewise ⟨1, 1, by decide, by decide⟩ .counting Client.quiet
          (.claim NewJob.oversized.queue 0 5)).2.tables (.claim NewJob.oversized.queue 0 5) := by
  intro untouched
  have leases : LeasesUnreadable .bytewise ⟨1, 1, by decide, by decide⟩ .counting Client.quiet
      oversized NewJob.oversized.queue 0 5 :=
    ⟨fun _ _ => rfl, rfl, by decide, _, _, rfl, by decide, rfl⟩
  obtain ⟨⟨error, failed⟩, changed⟩ := claim_spoils .bytewise ⟨1, 1, by decide, by decide⟩
    .counting (show (oversized.tables.jobs.map JobRow.id).Nodup from List.nodup_singleton _)
    leases
  refine changed (untouched error ?_)
  exact (JobAnswer.error?_ofClaim _).trans (errorOf_eq_some.mpr failed)

end SqlxJobStore

end Renvor
