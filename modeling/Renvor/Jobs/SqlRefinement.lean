import Renvor.Jobs.SqlStatements
import Renvor.Jobs.Table

/-! # The SQL store refines the job table

Whatever collation the engine compares texts by, every call is a transition of
the job table (`Renvor.sql_refines`). A table in memory knows nothing of these:
names the collation takes for one, a row whose payload is beyond the store's
bounds, which does not read back, a counter at the end of its column, and a
transaction that a panic undoes.
-/

namespace Renvor

open Foundation

namespace SqlxJobStore

/-- The stored jobs. -/
def rows (store : SqlxJobStore) : List Row := store.tables.jobs.filterMap JobRow.decode

/-- The job table a store stands for. -/
def jobs (store : SqlxJobStore) : JobTable := ⟨store.rows, store.drawn⟩

/-- How this store falls short of the plain table. -/
def limits {engine : SqlEngine} (collates : engine.Collates) (bounds : JobBounds) : RowLimits where
  Unreadable row := ¬ row.job.payload.bytes.length ≤ bounds.maxPayloadBytes
  Uncountable row := i32Max < row.job.attempts + 1
  sameQueue left right := engine.same left.text right.text
  sameKey left right := engine.same left.text right.text
  Keeps := False
  queue_refl queue := collates.refl queue.text
  key_refl key := collates.refl key.text

/-- A row that holds a key as the engine compares it. -/
theorem limits_holds {engine : SqlEngine} (collates : engine.Collates) {bounds : JobBounds}
    {queue : QueueName} {key : IdempotencyKey} {row : Row} :
    (limits collates bounds).Holds queue key row ↔
      (engine.inQueue queue row.job.queue && engine.holdsKey key row) = true := by
  simp [RowLimits.Holds, limits, SqlEngine.inQueue, SqlEngine.holdsKey, Option.any_eq_true]

/-- What holds of a store between calls. -/
structure Sound (entropy : Entropy) (store : SqlxJobStore) : Prop where
  tables : store.tables = written store.rows store.tables.queues
  jobs : store.jobs.Sound entropy

/-- The rows of a store that wrote some jobs are these jobs. -/
theorem rows_written (rows : List Row) (queues : List String) (drawn : Nat) :
    SqlxJobStore.rows ⟨written rows queues, drawn⟩ = rows := by
  simp [SqlxJobStore.rows, written, List.filterMap_map]

/-- The call leaves written rows and is a transition of the job table. -/
def Performs {engine : SqlEngine} (collates : engine.Collates) (bounds : JobBounds)
    (entropy : Entropy) (rows : List Row) (drawn : Nat) (op : JobOp)
    (outcome : JobAnswer × SqlxJobStore) : Prop :=
  ∃ later queues draws, outcome.2 = ⟨written later queues, draws⟩ ∧
    JobStep bounds entropy (limits collates bounds) ⟨rows, drawn⟩ (op, outcome.1) ⟨later, draws⟩

variable {engine : SqlEngine} {bounds : JobBounds} {entropy : Entropy} {rows : List Row}
  {queues : List String} {drawn : Nat}

/-- One row matches, or none does. -/
private theorem filter_none {matched : Row → Bool}
    (none : ∀ row ∈ rows, matched row = false) : (rows.filter matched).length = 0 := by
  rw [List.length_eq_zero_iff, List.filter_eq_nil_iff]
  intro row member
  simp [none row member]

section

variable (sound : JobTable.Sound entropy ⟨rows, drawn⟩) (collates : engine.Collates)
include sound

/-- No two rows have one identifier. -/
private theorem distinct : (rows.map fun row => row.job.id).Nodup := by
  have ids := sound.ids
  simpa using ids

/-- A leased holder of the token is the row a statement about it updates. -/
private theorem update_holder {token : LeaseToken} {row : Row} (member : row ∈ rows)
    (held : row.lease = some token) (leased : row.job.state = .leased) (change : Row → Row) :
    ∃ rest : Multiset Row, (rows : Multiset Row) = row ::ₘ rest ∧
      (updateWhere (fun row => row.lease = some token && row.job.state = .leased) change rows :
        Multiset Row) = change row ::ₘ rest ∧
      (rows.filter fun row => row.lease = some token && row.job.state = .leased).length = 1 := by
  refine updateWhere_one _ (distinct sound) member (by simp [held, leased]) ?_
  intro other among hit
  simp only [Bool.and_eq_true, decide_eq_true_eq] at hit
  exact sound.tokens other among row member token hit.1 held

/-- A job in a state is the row a statement about it updates. -/
private theorem update_job {state : JobState} {row : Row} (member : row ∈ rows)
    (now : row.job.state = state) (change : Row → Row) :
    ∃ rest : Multiset Row, (rows : Multiset Row) = row ::ₘ rest ∧
      (updateWhere (fun other => other.job.id = row.job.id && other.job.state = state) change rows :
        Multiset Row) = change row ::ₘ rest ∧
      (rows.filter fun other => other.job.id = row.job.id && other.job.state = state).length =
        1 := by
  refine updateWhere_one _ (distinct sound) member (by simp [now]) ?_
  intro other _ hit
  simp only [Bool.and_eq_true, decide_eq_true_eq] at hit
  exact hit.1

omit sound in
/-- Where no leased row holds the token, a statement about it matches none. -/
private theorem unmatched_holder {token : LeaseToken}
    (nobody : ¬ ∃ row ∈ rows, row.lease = some token ∧ row.job.state = .leased) :
    ∀ row ∈ rows, (row.lease = some token && row.job.state = .leased) = false := by
  intro row member
  by_contra hit
  simp only [Bool.not_eq_false, Bool.and_eq_true, decide_eq_true_eq] at hit
  exact nobody ⟨row, member, hit⟩

/-- Completing is a transition of the job table: of the job that holds the token, or of none. -/
theorem complete_performs (token : LeaseToken) (now : Instant) :
    Performs collates bounds entropy rows drawn (.complete token now)
      (run engine bounds entropy Client.quiet ⟨written rows queues, drawn⟩
        (.complete token now)) := by
  simp only [run, perform, complete, Session.start, Client.bind_apply, Client.autocommit_quiet,
    JobTables.complete_written]
  by_cases holder : ∃ row ∈ rows, row.lease = some token ∧ row.job.state = .leased
  · obtain ⟨row, member, held, leased⟩ := holder
    obtain ⟨rest, before, after, affected⟩ :=
      update_holder sound member held leased (Row.complete now)
    rw [if_pos affected]
    refine ⟨_, _, _, rfl, ?_⟩
    rw [after]
    exact .completed now before held leased
  · have missed := unmatched_holder holder
    rw [if_neg (by simp [filter_none missed]), updateWhere_none missed]
    simp only [Client.bind_apply, Client.autocommit_quiet, JobTables.stateForLease_written]
    cases found : rows.find? fun row => row.lease = some token with
    | none =>
        refine ⟨_, _, _, rfl, .completeRefused now ?_⟩
        intro row member held
        exact (List.find?_eq_none.mp found row member (by simp [held])).elim
    | some row =>
        have member := List.mem_of_find?_eq_some found
        have held : row.lease = some token := by simpa using List.find?_some found
        have refused : row.job.state ≠ .completed →
            JobStep bounds entropy (limits collates bounds) ⟨rows, drawn⟩
              (.complete token now, .completed (.error .leaseNotHeld)) ⟨rows, drawn⟩ := by
          intro unfinished
          refine .completeRefused now fun other among also => ?_
          rw [← sound.holder member among held also]
          exact ⟨fun leased => holder ⟨row, member, held, leased⟩, unfinished⟩
        cases state : row.job.state with
        | leased => exact (holder ⟨row, member, held, state⟩).elim
        | completed =>
            simp only [Option.map_some, row.encode_state_eq_completed.mpr state]
            exact ⟨_, _, _, rfl, .completedAgain now member held state⟩
        | ready =>
            simp only [Option.map_some, row.encode_state_eq_ready.mpr state]
            exact ⟨_, _, _, rfl, refused (by simp [state])⟩
        | dead =>
            simp only [Option.map_some, row.encode_state_eq_dead.mpr state]
            exact ⟨_, _, _, rfl, refused (by simp [state])⟩

/-- Recording a failure is a transition of the job table, which buries the job or reschedules it. -/
theorem fail_performs (token : LeaseToken) (failure : FailureKind) (nextRunAt now : Instant) :
    Performs collates bounds entropy rows drawn (.fail token failure nextRunAt now)
      (run engine bounds entropy Client.quiet ⟨written rows queues, drawn⟩
        (.fail token failure nextRunAt now)) := by
  simp only [run, perform, fail, Session.start, Client.bind_apply, Client.begin_quiet,
    Client.query_quiet, JobTables.heldForLease_written]
  cases found : rows.find? fun row => row.lease = some token && row.job.state = .leased with
  | none =>
      refine ⟨_, _, _, rfl, .failRefused failure nextRunAt now ?_⟩
      intro row member held leased
      exact (List.find?_eq_none.mp found row member (by simp [held, leased])).elim
  | some row =>
      have member := List.mem_of_find?_eq_some found
      have hit := List.find?_some found
      simp only [Bool.and_eq_true, decide_eq_true_eq] at hit
      obtain ⟨held, leased⟩ := hit
      simp only [Option.map_some, Client.bind_apply, Client.query_quiet,
        if_pos (Int.natCast_nonneg _), Int.toNat_natCast]
      have decided : (failure.isTerminal || decide (row.job.attempts ≥ row.job.maxAttempts)) =
          row.spent failure := rfl
      simp only [decided]
      by_cases spent : row.spent failure = true
      · obtain ⟨rest, before, after, affected⟩ :=
          update_job sound member leased (Row.bury failure now)
        simp only [if_pos spent, JobTables.bury_written, affected]
        refine ⟨_, _, _, rfl, ?_⟩
        rw [after]
        exact .buried nextRunAt now before held leased spent
      · obtain ⟨rest, before, after, affected⟩ :=
          update_job sound member leased (Row.reschedule failure nextRunAt now)
        simp only [if_neg spent, JobTables.reschedule_written, affected]
        refine ⟨_, _, _, rfl, ?_⟩
        rw [after]
        exact .rescheduled nextRunAt now before held leased (Bool.eq_false_iff.mpr spent)

/-- Releasing is a transition of the job table, which gives the job of the token back or refuses. -/
theorem release_performs (token : LeaseToken) (now : Instant) :
    Performs collates bounds entropy rows drawn (.release token now)
      (run engine bounds entropy Client.quiet ⟨written rows queues, drawn⟩
        (.release token now)) := by
  simp only [run, perform, release, Session.start, Client.bind_apply, Client.autocommit_quiet,
    JobTables.release_written]
  by_cases holder : ∃ row ∈ rows, row.lease = some token ∧ row.job.state = .leased
  · obtain ⟨row, member, held, leased⟩ := holder
    obtain ⟨rest, before, after, affected⟩ :=
      update_holder sound member held leased (Row.release now)
    rw [if_pos affected]
    refine ⟨_, _, _, rfl, ?_⟩
    rw [after]
    exact .released now before held leased
  · have missed := unmatched_holder holder
    rw [if_neg (by simp [filter_none missed]), updateWhere_none missed]
    exact ⟨_, _, _, rfl, .releaseRefused now fun row member held leased =>
      holder ⟨row, member, held, leased⟩⟩

/-- Reviving is a transition of the job table, told apart by whether there is such a job. -/
theorem revive_performs (id : JobId) (now : Instant) :
    Performs collates bounds entropy rows drawn (.revive id now)
      (run engine bounds entropy Client.quiet ⟨written rows queues, drawn⟩ (.revive id now)) := by
  simp only [run, perform, revive, Session.start, Client.bind_apply, Client.autocommit_quiet,
    JobTables.revive_written]
  by_cases dead : ∃ row ∈ rows, row.job.id = id ∧ row.job.state = .dead
  · obtain ⟨row, member, rfl, dead⟩ := dead
    obtain ⟨rest, before, after, affected⟩ := update_job sound member dead (Row.revive now)
    rw [if_pos affected]
    refine ⟨_, _, _, rfl, ?_⟩
    rw [after]
    exact .revived now before dead
  · have missed : ∀ row ∈ rows, (row.job.id = id && row.job.state = .dead) = false := by
      intro row member
      by_contra hit
      simp only [Bool.not_eq_false, Bool.and_eq_true, decide_eq_true_eq] at hit
      exact dead ⟨row, member, hit⟩
    rw [if_neg (by simp [filter_none missed]), updateWhere_none missed]
    simp only [Client.bind_apply, Client.autocommit_quiet, JobTables.countId_written]
    by_cases known : ∃ row ∈ rows, row.job.id = id
    · obtain ⟨row, member, rfl⟩ := known
      have counted : (rows.filter fun other => other.job.id = row.job.id).length ≠ 0 := by
        rw [ne_eq, List.length_eq_zero_iff, List.filter_eq_nil_iff]
        exact fun unknown => unknown row member (by simp)
      rw [if_neg counted]
      exact ⟨_, _, _, rfl, .reviveAlive now member fun state => dead ⟨row, member, rfl, state⟩⟩
    · have unknown : ∀ row ∈ rows, decide (row.job.id = id) = false := fun row member =>
        decide_eq_false fun same => known ⟨row, member, same⟩
      rw [if_pos (filter_none unknown)]
      exact ⟨_, _, _, rfl, .reviveUnknown now fun row member same => known ⟨row, member, same⟩⟩

omit sound in
/-- Reading is a transition of the job table that changes nothing. -/
theorem read_performs (id : JobId) :
    Performs collates bounds entropy rows drawn (.read id)
      (run engine bounds entropy Client.quiet ⟨written rows queues, drawn⟩ (.read id)) := by
  simp only [run, perform, read, Session.start, Client.bind_apply, Client.autocommit_quiet,
    JobTables.rowForId_written]
  cases found : rows.find? fun row => row.job.id = id with
  | none =>
      refine ⟨_, _, _, rfl, .missing ?_⟩
      intro row member same
      exact List.find?_eq_none.mp found row member (by simp [same])
  | some row =>
      have member := List.mem_of_find?_eq_some found
      obtain rfl : row.job.id = id := by simpa using List.find?_some found
      simp only [Option.map_some, jobFromRow_encode]
      by_cases fits : row.job.payload.bytes.length ≤ bounds.maxPayloadBytes
      · rw [if_pos fits]
        exact ⟨_, _, _, rfl, .found member (not_not.mpr fits)⟩
      · rw [if_neg fits]
        exact ⟨_, _, _, rfl, .foundUnread member fits⟩

omit sound in
/-- Counting a queue is a transition of the job table that changes nothing. -/
theorem depth_performs (queue : QueueName) :
    Performs collates bounds entropy rows drawn (.depth queue)
      (run engine bounds entropy Client.quiet ⟨written rows queues, drawn⟩ (.depth queue)) := by
  simp only [run, perform, depth, Session.start, Client.autocommit_quiet,
    JobTables.countLive_written]
  have counted : (rows.filter (Row.countedIn (engine.inQueue queue))).length =
      depthIn ((limits collates bounds).inQueue queue) rows := depthIn_coe _ _
  rw [counted]
  exact ⟨_, _, _, rfl, .depth ⟨rows, drawn⟩ queue⟩

/-- A job whose key is free is counted and inserted. -/
private theorem enqueueCounted_performs (fresh : entropy.Fresh) {job : NewJob}
    (free : (limits collates bounds).KeyFree rows job) (now : Instant) (statements : Nat) :
    Performs collates bounds entropy rows drawn (.enqueue job now)
      (let (result, session) := enqueueCounted engine bounds entropy job now Client.quiet
        ⟨written rows queues, written rows queues, statements, drawn⟩
      (.enqueued result, ⟨session.committed, session.own⟩)) := by
  have counted : (rows.filter (Row.countedIn (engine.inQueue job.queue))).length =
      depthIn ((limits collates bounds).inQueue job.queue) rows := depthIn_coe _ _
  simp only [enqueueCounted, Client.bind_apply, Client.query_quiet,
    JobTables.countLive_written, counted]
  by_cases full : depthIn ((limits collates bounds).inQueue job.queue) rows ≥ bounds.maxQueueDepth
  · rw [if_pos full]
    exact ⟨_, _, _, rfl, .full now free full⟩
  · rw [if_neg full]
    have room := Nat.lt_of_not_le full
    simp only [Client.bind_apply, draw, Client.keep_apply]
    cases given : entropy drawn with
    | none => exact ⟨_, _, _, rfl, .enqueueEntropy now free room given⟩
    | some id =>
        have unused : ∀ row ∈ rows, row.job.id ≠ id := by
          rintro row member rfl
          exact fresh.unissued given (sound.issuedIds row member)
        have unheld : ∀ key, job.idempotencyKey = some key → ∀ row ∈ rows,
            ¬ (engine.inQueue job.queue row.job.queue && engine.holdsKey key row) = true :=
          fun key asked row member holds =>
            free key asked row member ((limits_holds collates).mpr holds)
        simp only [Client.bind_apply, Client.attempt_quiet,
          JobTables.insert_written collates unused unheld, Client.commit_quiet]
        refine ⟨_, _, _, rfl, ?_⟩
        rw [← Multiset.cons_coe]
        exact .created now free room given

/-- Enqueueing is a transition of the job table: the duplicate is found, or room is asked for. -/
theorem enqueue_performs (fresh : entropy.Fresh) (job : NewJob) (now : Instant) :
    Performs collates bounds entropy rows drawn (.enqueue job now)
      (run engine bounds entropy Client.quiet ⟨written rows queues, drawn⟩ (.enqueue job now)) := by
  obtain ⟨more, held, upserted, locked⟩ :=
    JobTables.lockQueue_upserted collates job.queue.text rows queues
  simp only [run, perform, enqueue, Session.start, Client.bind_apply, Client.autocommit_quiet,
    upserted, Client.begin_quiet, Client.query_quiet, locked]
  cases asked : job.idempotencyKey with
  | none =>
      have free : (limits collates bounds).KeyFree rows job := fun key wanted => by
        rw [asked] at wanted
        cases wanted
      exact enqueueCounted_performs sound collates fresh free now _
  | some key =>
      simp only [Client.bind_apply, Client.query_quiet, JobTables.idForKey_written]
      cases found : rows.find? fun row =>
          engine.inQueue job.queue row.job.queue && engine.holdsKey key row with
      | none =>
          have free : (limits collates bounds).KeyFree rows job := by
            intro other wanted row member holds
            cases Option.some.inj (asked.symm.trans wanted)
            exact List.find?_eq_none.mp found row member ((limits_holds collates).mp holds)
          exact enqueueCounted_performs sound collates fresh free now _
      | some row =>
          have member := List.mem_of_find?_eq_some found
          have hit := List.find?_some found
          have holds : (limits collates bounds).Holds job.queue key row :=
            (limits_holds collates).mpr hit
          simp only [Option.map_some, sixteen_bytes]
          exact ⟨_, _, _, rfl, .duplicate now asked member holds⟩

omit sound collates in
/-- The first row in claim order is the first job. -/
private theorem first_runnable {current : List Row} {inQueue : QueueName → Bool} {now : Instant}
    {code : JobRow} (found : ((current.filter (Row.runnableIn inQueue now)).map Row.encode).argmin
      (fun row => toLex (row.runAt, row.id)) = some code) :
    ∃ row ∈ current, row.encode = code ∧ row.runnableIn inQueue now = true ∧
      ∀ other ∈ current, other.runnableIn inQueue now = true →
        toLex (row.job.runAt, row.job.id) ≤ toLex (other.job.runAt, other.job.id) := by
  obtain ⟨row, listed, rfl⟩ := List.mem_map.mp (List.argmin_mem found)
  obtain ⟨member, runnable⟩ := List.mem_filter.mp listed
  refine ⟨row, member, rfl, runnable, ?_⟩
  intro other among runs
  have least := List.le_of_mem_argmin
    (List.mem_map_of_mem (List.mem_filter.mpr ⟨among, runs⟩)) found
  rw [Prod.Lex.toLex_le_toLex] at least ⊢
  exact least

omit sound collates in
/-- Where no row is first, no job is runnable. -/
private theorem none_runnable {current : List Row} {inQueue : QueueName → Bool} {now : Instant}
    (found : ((current.filter (Row.runnableIn inQueue now)).map Row.encode).argmin
      (fun row => toLex (row.runAt, row.id)) = none) :
    ∀ row ∈ current, row.runnableIn inQueue now = false := by
  intro row member
  by_contra runnable
  have empty := List.map_eq_nil_iff.mp (List.argmin_eq_none.mp found)
  exact List.filter_eq_nil_iff.mp empty row member (Bool.not_eq_false _ ▸ runnable)

omit sound collates in
/-- The batch of expired leases that the statement takes back is one that a claim may take. -/
private theorem reclaimed_first (engine : SqlEngine) (rows : List Row) (queue : QueueName)
    (now : Instant) : Reclaimed (engine.inQueue queue) now rows
      (updateFirst (Row.expiredIn (engine.inQueue queue) now) (Row.reclaim now) reclaimBatch rows) := by
  obtain ⟨batch, rest, before, after, expired, card⟩ := updateFirst_split reclaimBatch rows
  exact ⟨batch, rest, before, after, expired, by simpa using card⟩

omit sound collates in
/-- Where an attempt can be counted in its column, counting it does not saturate. -/
private theorem saturatingAdd_countable {attempts : Nat}
    (countable : (attempts : Int) + 1 ≤ i32Max) :
    saturatingAdd attempts 1 = attempts + 1 := by
  simp only [saturatingAdd, u32Max, i32Max] at countable ⊢
  omega

/-- Claiming is a transition of the job table, wherever it stops: at a search that finds nothing,
at the drawing of the token, at the end of the lease, at the counter, or at the job that it
cannot read. -/
theorem claim_performs (queue : QueueName) (now : Instant) (lease : Nat) :
    Performs collates bounds entropy rows drawn (.claim queue now lease)
      (run engine bounds entropy Client.quiet ⟨written rows queues, drawn⟩
        (.claim queue now lease)) := by
  have unfinished : ∀ row ∈ rows, row.job.state = .leased → row.job.finishedAt = none := by
    intro row member leased
    have shaped := sound.shaped row member
    simp only [Row.Shaped, leased] at shaped
    exact shaped.2
  simp only [run, perform, claim, Session.start, Client.bind_apply, Client.autocommit_quiet,
    Client.begin_quiet, Client.query_quiet, JobTables.reclaim_written unfinished,
    JobTables.oldestRunnable_written]
  have reclaimed := reclaimed_first engine rows queue now
  generalize updateFirst (Row.expiredIn (engine.inQueue queue) now) (Row.reclaim now) reclaimBatch
    rows = current at reclaimed ⊢
  have still : JobTable.Sound entropy ⟨current, drawn⟩ := sound.reclaimed reclaimed
  cases found : ((current.filter (Row.runnableIn (engine.inQueue queue) now)).map
      Row.encode).argmin (fun row => toLex (row.runAt, row.id)) with
  | none =>
      exact ⟨_, _, _, rfl, .idle lease reclaimed (none_runnable found)⟩
  | some code =>
      obtain ⟨row, member, rfl, runnable, least⟩ := first_runnable found
      have ready := (Row.ready_of_runnable runnable).1
      obtain ⟨rest, split⟩ : ∃ rest, (current : Multiset Row) = row ::ₘ rest :=
        Multiset.exists_cons_of_mem member
      have first : row.First (engine.inQueue queue) now rest := by
        refine ⟨runnable, fun other listed => least other ?_⟩
        rw [← Multiset.mem_coe, split]
        exact Multiset.mem_cons_of_mem listed
      simp only [Client.bind_apply, draw, Client.keep_apply]
      cases given : entropy drawn with
      | none =>
          refine ⟨current, _, _, rfl, ?_⟩
          rw [split] at reclaimed ⊢
          exact .claimEntropy lease reclaimed first given
      | some token =>
          cases ends : leaseEnd now lease with
          | none =>
              refine ⟨current, _, _, rfl, ?_⟩
              rw [split] at reclaimed ⊢
              exact .claimDropped lease reclaimed first given not_false (leaseEnd_eq_none.mp ends)
          | some expiresAt =>
              obtain ⟨fits, rfl⟩ := leaseEnd_eq_some.mp ends
              simp only [Client.bind_apply, Client.query_quiet, Row.encode_id,
                JobTables.lease_written]
              by_cases full : i32Max < row.job.attempts + 1
              · rw [if_pos ⟨row, member, rfl, ready, full⟩]
                refine ⟨current, _, _, rfl, ?_⟩
                rw [split] at reclaimed ⊢
                exact .claimUncountable lease reclaimed first given full fits
              · have countable : ¬ ∃ other ∈ current, other.job.id = row.job.id ∧
                    other.job.state = .ready ∧ i32Max < other.job.attempts + 1 := by
                  rintro ⟨other, among, same, _, beyond⟩
                  exact full (still.same among member same ▸ beyond)
                obtain ⟨others, before, after, affected⟩ :=
                  update_job still member ready (Row.claim token now lease)
                cases (Multiset.cons_inj_right row).mp (split.symm.trans before)
                simp only [if_neg countable, affected, ne_eq, not_true_eq_false, if_false,
                  Client.bind_apply, Client.commit_quiet, Client.ofExcept_apply, jobFromRow_encode]
                have counted := saturatingAdd_countable (Int.not_lt.mp full)
                rw [split] at reclaimed
                by_cases readable : row.job.payload.bytes.length ≤ bounds.maxPayloadBytes
                · simp only [if_pos readable, counted]
                  refine ⟨_, _, _, rfl, ?_⟩
                  rw [after]
                  exact .claimed lease reclaimed first given full (not_not.mpr readable) fits
                · simp only [if_neg readable]
                  refine ⟨_, _, _, rfl, ?_⟩
                  rw [after]
                  exact .claimedUnread lease reclaimed first given full readable fits

end

/-- Decoding written rows and writing them again gives the same rows. -/
private theorem encode_decode {codes : List JobRow} (every : ∀ code ∈ codes, ∃ row : Row,
    row.encode = code) : (codes.filterMap JobRow.decode).map Row.encode = codes := by
  induction codes with
  | nil => rfl
  | cons code codes ih =>
      obtain ⟨row, rfl⟩ := every code List.mem_cons_self
      rw [List.filterMap_cons_some (JobRow.decode_encode row), List.map_cons,
        ih fun other listed => every other (List.mem_cons_of_mem _ listed)]

/-- The order rows are scanned in does not matter. -/
theorem Sound.rescanned {store scanned : SqlxJobStore} (sound : store.Sound entropy)
    (rescanned : store.Rescanned scanned) :
    scanned.Sound entropy ∧ scanned.jobs = store.jobs := by
  obtain ⟨jobs, queues, drawn⟩ := rescanned
  have same : scanned.jobs = store.jobs := by
    rw [SqlxJobStore.jobs, SqlxJobStore.jobs, drawn]
    congr 1
    exact Multiset.coe_eq_coe.mpr (jobs.symm.filterMap _)
  have codes : ∀ code ∈ scanned.tables.jobs, ∃ row : Row, row.encode = code := by
    intro code listed
    have among : code ∈ store.tables.jobs := jobs.mem_iff.mpr listed
    rw [sound.tables] at among
    obtain ⟨row, _, same⟩ := List.mem_map.mp among
    exact ⟨row, same⟩
  refine ⟨⟨?_, same ▸ sound.jobs⟩, same⟩
  rw [SqlxJobStore.rows, written, encode_decode codes]

/-- **Every call of a sound store is a transition of the job table** and leaves
it sound. -/
theorem Sound.run (collates : engine.Collates) (bounds : JobBounds) (fresh : entropy.Fresh)
    {store : SqlxJobStore} (sound : store.Sound entropy) (op : JobOp) :
    (store.run engine bounds entropy Client.quiet op).2.Sound entropy ∧
      JobStep bounds entropy (limits collates bounds) store.jobs
        (op, (store.run engine bounds entropy Client.quiet op).1)
        (store.run engine bounds entropy Client.quiet op).2.jobs := by
  have whole : store = ⟨written store.rows store.tables.queues, store.drawn⟩ := by
    conv_lhs => rw [show store = ⟨store.tables, store.drawn⟩ from rfl, sound.tables]
  have performs : Performs collates bounds entropy store.rows store.drawn op
      (SqlxJobStore.run engine bounds entropy Client.quiet
        ⟨written store.rows store.tables.queues, store.drawn⟩ op) := by
    cases op with
    | enqueue job now => exact enqueue_performs sound.jobs collates fresh job now
    | claim queue now lease => exact claim_performs sound.jobs collates queue now lease
    | complete lease now => exact complete_performs sound.jobs collates lease now
    | fail lease failure nextRunAt now =>
        exact fail_performs sound.jobs collates lease failure nextRunAt now
    | release lease now => exact release_performs sound.jobs collates lease now
    | revive id now => exact revive_performs sound.jobs collates id now
    | read id => exact read_performs collates id
    | depth queue => exact depth_performs collates queue
  rw [← whole] at performs
  obtain ⟨later, queues, draws, left, step⟩ := performs
  have jobs : (store.run engine bounds entropy Client.quiet op).2.jobs = ⟨later, draws⟩ := by
    rw [left, SqlxJobStore.jobs, rows_written]
  refine ⟨⟨?_, ?_⟩, jobs ▸ step⟩
  · rw [left, rows_written]
    rfl
  · rw [jobs]
    exact sound.jobs.step fresh step

/-- A store without rows is sound. -/
theorem empty_sound : empty.Sound entropy where
  tables := rfl
  jobs := JobTable.sound_empty

end SqlxJobStore

/-- **The SQL store refines the job table**, up to what it takes for one and the
rows it fails at, whatever the collation. -/
theorem sql_refines {engine : SqlEngine} (collates : engine.Collates) (bounds : JobBounds)
    {entropy : Entropy} (fresh : entropy.Fresh) :
    TransitionSystem.Refinement (sqlSystem engine bounds entropy)
      (jobSystem bounds entropy (SqlxJobStore.limits collates bounds))
      (SqlxJobStore.Sound entropy) SqlxJobStore.jobs where
  initial store start := by
    cases start
    exact ⟨SqlxJobStore.empty_sound, rfl⟩
  step before label after sound step := by
    obtain ⟨scanned, rescanned, ran⟩ := step
    obtain ⟨still, same⟩ := sound.rescanned rescanned
    have taken := still.run collates bounds fresh label.1
    rw [ran, same] at taken
    exact taken

end Renvor
