import Renvor.Jobs.Memory
import Renvor.Jobs.Table

/-! # The in-memory store keeps its indexes

The ready index and the key map are redundant: both are determined by the rows
(`Renvor.Table.Consistent`). Every call keeps them so, and is a transition of
the job table (`Renvor.memory_refines`).
-/

namespace Renvor

open Foundation

namespace Table

/-- The ready index holds the ready jobs under their claim order, and nothing
else. -/
def Indexed (ready : OrderedMap ReadyKey JobId) (rows : Multiset Row) : Prop :=
  ∀ key id, (key, id) ∈ ready ↔ ∃ row ∈ rows, row.job.state = .ready ∧
    key = readyKey row.job.runAt row.job.id ∧ id = row.job.id

/-- The key map sends a queue's key to the job that holds it. -/
def Keyed (keys : QueueName × IdempotencyKey → Option JobId) (rows : Multiset Row) : Prop :=
  ∀ queue key id, keys (queue, key) = some id ↔
    ∃ row ∈ rows, row.job.id = id ∧ row.HoldsKey queue key

/-- The identifiers are distinct and both indexes agree with the rows. -/
structure Consistent (table : Table) : Prop where
  ids : (table.rows.map fun row => row.job.id).Nodup
  indexed : Indexed table.ready table.rows
  keyed : Keyed table.keys table.rows

variable {table : Table}

/-- An empty table is consistent. -/
theorem empty_consistent : empty.Consistent where
  ids := List.nodup_nil
  indexed := by simp [Indexed, empty]
  keyed := by simp [Keyed, empty]

/-- An entry of the index is filed under its own identifier. -/
theorem Indexed.own {ready : OrderedMap ReadyKey JobId} {rows : Multiset Row}
    (indexed : Indexed ready rows) {key : ReadyKey} {id : JobId} (member : (key, id) ∈ ready) :
    (ofLex key).2 = id := by
  obtain ⟨row, _, _, rfl, rfl⟩ := (indexed key id).mp member
  rfl

/-- A job that is not ready is not in the index. -/
theorem Consistent.unready (consistent : table.Consistent) {row : Row} (member : row ∈ table.rows)
    (state : row.job.state ≠ .ready) {key : ReadyKey} {id : JobId}
    (listed : (key, id) ∈ table.ready) : id ≠ row.job.id := by
  obtain ⟨other, also, ready, _, rfl⟩ := (consistent.indexed key id).mp listed
  intro same
  have one := eq_of_key consistent.ids (Multiset.mem_coe.mp also) member same
  exact state (one ▸ ready)

/-- The row a job is found at. -/
theorem get_some {id : JobId} {row : Row} (found : table.get id = some row) :
    row ∈ table.rows ∧ row.job.id = id := by
  rw [get] at found
  exact ⟨List.mem_of_find?_eq_some found, by simpa using List.find?_some found⟩

/-- No job is found under an identifier exactly where none has it. -/
theorem get_none {id : JobId} : table.get id = none ↔ ∀ row ∈ table.rows, row.job.id ≠ id := by
  simp [get]

/-- Where identifiers are distinct, a stored row is the one its job is found
at. -/
theorem Consistent.get_mem (consistent : table.Consistent) {row : Row}
    (member : row ∈ table.rows) : table.get row.job.id = some row := by
  cases found : table.get row.job.id with
  | none => exact (get_none.mp found row member rfl).elim
  | some other =>
      obtain ⟨listed, same⟩ := get_some found
      rw [eq_of_key consistent.ids listed member same]

/-- Changing one row exchanges it in the multiset of rows. -/
theorem Consistent.put_rows (consistent : table.Consistent) {row : Row}
    (member : row ∈ table.rows) (change : Row → Row) :
    ∃ rest : Multiset Row, (table.rows : Multiset Row) = row ::ₘ rest ∧
      ((table.put row.job.id change).rows : Multiset Row) = change row ::ₘ rest := by
  obtain ⟨front, rest, split, before, after⟩ := split_of_nodup consistent.ids member
  refine ⟨(front ++ rest : List Row), ?_, ?_⟩
  · rw [split, Multiset.cons_coe]
    exact Multiset.coe_eq_coe.mpr List.perm_middle
  · have exchanged : (table.put row.job.id change).rows = front ++ change row :: rest := by
      rw [put, split]
      exact updateWhere_split (by simp) (by simpa using before) (by simpa using after)
    rw [exchanged, Multiset.cons_coe]
    exact Multiset.coe_eq_coe.mpr List.perm_middle

/-- **Changing one row keeps the table consistent**, provided the row keeps its
identity and the index exchanges the job's entry. -/
theorem Consistent.put (consistent : table.Consistent) {row : Row} (member : row ∈ table.rows)
    {change : Row → Row} {ready : OrderedMap ReadyKey JobId}
    (same : ∀ row, (change row).job.id = row.job.id)
    (queue : ∀ row, (change row).job.queue = row.job.queue)
    (key : ∀ row, (change row).job.idempotencyKey = row.job.idempotencyKey)
    (index : ∀ entry, entry ∈ ready ↔ (entry ∈ table.ready ∧ entry.2 ≠ row.job.id) ∨
      ((change row).job.state = .ready ∧
        entry = (readyKey (change row).job.runAt row.job.id, row.job.id))) :
    Consistent { table.put row.job.id change with ready := ready } := by
  obtain ⟨rest, before, after⟩ := consistent.put_rows member change
  have rows : ((table.put row.job.id change).rows.map fun row => row.job.id) =
      table.rows.map fun row => row.job.id := map_updateWhere fun row _ => same row
  have others : ∀ other ∈ rest, other.job.id ≠ row.job.id := by
    have distinct : ((table.rows : Multiset Row).map fun row => row.job.id).Nodup := by
      rw [Multiset.map_coe]
      exact consistent.ids
    rw [before, Multiset.map_cons, Multiset.nodup_cons] at distinct
    intro other listed again
    exact distinct.1 (again ▸ Multiset.mem_map_of_mem _ listed)
  refine ⟨rows ▸ consistent.ids, ?_, ?_⟩
  · intro place id
    rw [index (place, id), consistent.indexed place id]
    change _ ↔ ∃ other ∈ ((table.put row.job.id change).rows : Multiset Row), _
    rw [before, after]
    simp only [Multiset.mem_cons, exists_eq_or_imp, same, Prod.mk.injEq]
    constructor
    · rintro (⟨⟨_, _, rfl⟩ | ⟨other, listed, fits⟩, different⟩ | now)
      · exact (different rfl).elim
      · exact Or.inr ⟨other, listed, fits⟩
      · exact Or.inl now
    · rintro (now | ⟨other, listed, fits⟩)
      · exact Or.inr now
      · exact Or.inl ⟨Or.inr ⟨other, listed, fits⟩, fits.2.2 ▸ others other listed⟩
  · intro name idempotencyKey id
    rw [show Table.keys { table.put row.job.id change with ready := ready } = table.keys from rfl,
      consistent.keyed name idempotencyKey id]
    change _ ↔ ∃ other ∈ ((table.put row.job.id change).rows : Multiset Row), _
    rw [before, after]
    simp only [Multiset.mem_cons, exists_eq_or_imp, Row.HoldsKey, same, queue, key]

/-- A job that stays out of the index leaves the index as it is. -/
theorem Consistent.put_quiet (consistent : table.Consistent) {row : Row}
    (member : row ∈ table.rows) {change : Row → Row} (before : row.job.state ≠ .ready)
    (after : (change row).job.state ≠ .ready) (same : ∀ row, (change row).job.id = row.job.id)
    (queue : ∀ row, (change row).job.queue = row.job.queue)
    (key : ∀ row, (change row).job.idempotencyKey = row.job.idempotencyKey) :
    (table.put row.job.id change).Consistent := by
  apply consistent.put member same queue key
  intro entry
  constructor
  · intro listed
    exact Or.inl ⟨listed, consistent.unready member before listed⟩
  · rintro (⟨listed, _⟩ | ⟨ready, _⟩)
    · exact listed
    · exact (after ready).elim

/-- A job that becomes ready is inserted. -/
theorem Consistent.put_ready (consistent : table.Consistent) {row : Row}
    (member : row ∈ table.rows) {change : Row → Row} (before : row.job.state ≠ .ready)
    (after : (change row).job.state = .ready) (same : ∀ row, (change row).job.id = row.job.id)
    (queue : ∀ row, (change row).job.queue = row.job.queue)
    (key : ∀ row, (change row).job.idempotencyKey = row.job.idempotencyKey) :
    Consistent { table.put row.job.id change with
      ready := table.ready.insert (readyKey (change row).job.runAt row.job.id) row.job.id } := by
  refine consistent.put member same queue key ?_
  intro entry
  rw [OrderedMap.mem_insert]
  constructor
  · rintro (rfl | ⟨listed, _⟩)
    · exact Or.inr ⟨after, rfl⟩
    · exact Or.inl ⟨listed, consistent.unready member before listed⟩
  · rintro (⟨listed, different⟩ | ⟨_, rfl⟩)
    · refine Or.inr ⟨listed, ?_⟩
      intro same
      have own := consistent.indexed.own listed
      rw [same] at own
      exact different own.symm
    · exact Or.inl rfl

/-- A ready job that is handed out is erased. -/
theorem Consistent.put_leased (consistent : table.Consistent) {row : Row}
    (member : row ∈ table.rows) {change : Row → Row}
    (after : (change row).job.state ≠ .ready) (same : ∀ row, (change row).job.id = row.job.id)
    (queue : ∀ row, (change row).job.queue = row.job.queue)
    (key : ∀ row, (change row).job.idempotencyKey = row.job.idempotencyKey) :
    Consistent { table.put row.job.id change with
      ready := table.ready.erase (readyKey row.job.runAt row.job.id) } := by
  refine consistent.put member same queue key ?_
  intro entry
  rw [OrderedMap.mem_erase]
  constructor
  · rintro ⟨listed, different⟩
    refine Or.inl ⟨listed, ?_⟩
    intro again
    obtain ⟨other, also, _, place, own⟩ := (consistent.indexed entry.1 entry.2).mp listed
    have one := eq_of_key consistent.ids (Multiset.mem_coe.mp also) member (own ▸ again)
    exact different (one ▸ place)
  · rintro (⟨listed, different⟩ | ⟨ready, _⟩)
    · refine ⟨listed, ?_⟩
      intro place
      have own := consistent.indexed.own listed
      rw [place] at own
      exact different own.symm
    · exact (after ready).elim

/-- A new ready job is inserted, and its key with it. -/
theorem Consistent.add (consistent : table.Consistent) {id : JobId}
    (fresh : ∀ row ∈ table.rows, row.job.id ≠ id) (job : NewJob) (now : Instant)
    (absent : ∀ key, job.idempotencyKey = some key →
      ∀ row ∈ table.rows, ¬ row.HoldsKey job.queue key) :
    Table.Consistent {
      rows := Row.enqueued id job now :: table.rows
      keys := match job.idempotencyKey with
        | some key => Function.update table.keys (job.queue, key) (some id)
        | none => table.keys
      ready := table.ready.insert (readyKey (Row.enqueued id job now).job.runAt id) id } := by
  refine ⟨?_, ?_, ?_⟩
  · rw [List.map_cons, List.nodup_cons]
    refine ⟨?_, consistent.ids⟩
    intro listed
    obtain ⟨row, member, same⟩ := List.mem_map.mp listed
    exact fresh row member same
  · intro key other
    rw [OrderedMap.mem_insert, consistent.indexed]
    simp only [← Multiset.cons_coe, Multiset.mem_cons, exists_eq_or_imp, Prod.mk.injEq]
    constructor
    · rintro (⟨rfl, rfl⟩ | ⟨stored, _⟩)
      · exact Or.inl ⟨rfl, rfl, rfl⟩
      · exact Or.inr stored
    · rintro (⟨_, rfl, rfl⟩ | ⟨row, member, ready, rfl, rfl⟩)
      · exact Or.inl ⟨rfl, rfl⟩
      · refine Or.inr ⟨⟨row, member, ready, rfl, rfl⟩, ?_⟩
        intro place
        exact fresh row member (congrArg (fun key => (ofLex key).2) place)
  · intro queue key other
    simp only [← Multiset.cons_coe, Multiset.mem_cons, exists_eq_or_imp]
    rw [← consistent.keyed queue key other]
    have new : ((Row.enqueued id job now).job.id = other ∧
        (Row.enqueued id job now).HoldsKey queue key) ↔
        id = other ∧ job.queue = queue ∧ job.idempotencyKey = some key := Iff.rfl
    rw [new]
    cases wanted : job.idempotencyKey with
    | none => simp
    | some own =>
        by_cases same : (queue, key) = (job.queue, own)
        · cases same
          simp only [Function.update_self, Option.some.injEq, and_true]
          constructor
          · exact Or.inl
          · rintro (now | held)
            · exact now
            · obtain ⟨row, member, _, holds⟩ := (consistent.keyed _ _ _).mp held
              exact (absent key wanted row member holds).elim
        · simp only [Function.update_of_ne same, Option.some.injEq]
          constructor
          · exact Or.inr
          · rintro (⟨_, rfl, rfl⟩ | held)
            · exact (same rfl).elim
            · exact held

/-! ## Taking expired leases back -/

/-- One expired lease is taken back in the row and in the index. -/
private theorem Consistent.reclaimOne (consistent : table.Consistent) {row : Row}
    (member : row ∈ table.rows) (leased : row.job.state = .leased) (now : Instant) :
    (table.reclaimOne now row.job.id).Consistent ∧
      (table.reclaimOne now row.job.id).rows = (table.put row.job.id (Row.reclaim now)).rows := by
  have before : row.job.state ≠ .ready := by simp [leased]
  rw [Table.reclaimOne, consistent.get_mem member]
  by_cases last : row.job.attempts ≥ row.job.maxAttempts
  · have after : (row.reclaim now).job.state ≠ .ready := by simp [Row.reclaim, last]
    simp only [if_pos last, and_true]
    exact consistent.put_quiet member before after (fun _ => rfl) (fun _ => rfl) fun _ => rfl
  · have after : (row.reclaim now).job.state = .ready := by simp [Row.reclaim, last]
    simp only [if_neg last, and_true]
    exact consistent.put_ready member before after (fun _ => rfl) (fun _ => rfl) fun _ => rfl

/-- A batch of expired leases is taken back one by one. -/
private theorem Consistent.reclaim_batch {queue : QueueName} {now : Instant} (batch : List Row)
    (rest : Multiset Row) (consistent : table.Consistent)
    (split : (table.rows : Multiset Row) = batch + rest)
    (expired : ∀ row ∈ batch, row.expired queue now = true) :
    ((batch.map fun row => row.job.id).foldl (Table.reclaimOne now) table).Consistent ∧
      (((batch.map fun row => row.job.id).foldl (Table.reclaimOne now) table).rows :
        Multiset Row) = (batch.map (Row.reclaim now) : List Row) + rest := by
  induction batch generalizing table rest with
  | nil => exact ⟨consistent, split⟩
  | cons row batch ih =>
      have listed : row ∈ (table.rows : Multiset Row) := by
        rw [split]
        simp
      have member : row ∈ table.rows := listed
      have leased := Row.leased_of_expired (expired row List.mem_cons_self)
      obtain ⟨kept, rows⟩ := consistent.reclaimOne member leased now
      obtain ⟨others, before, after⟩ := consistent.put_rows member (Row.reclaim now)
      have same : others = batch + rest := by
        rw [split, ← Multiset.cons_coe, Multiset.cons_add] at before
        exact ((Multiset.cons_inj_right row).mp before).symm
      have next : ((table.reclaimOne now row.job.id).rows : Multiset Row) =
          batch + (row.reclaim now ::ₘ rest) := by
        rw [rows, after, same, Multiset.add_cons]
      obtain ⟨consistent, whole⟩ := ih (row.reclaim now ::ₘ rest) kept next
        fun other later => expired other (List.mem_cons_of_mem row later)
      rw [List.map_cons, List.foldl_cons]
      refine ⟨consistent, ?_⟩
      rw [whole, List.map_cons, ← Multiset.cons_coe, Multiset.cons_add, Multiset.add_cons]

/-- **Reclaiming takes back one batch of expired leases** and keeps the table
consistent. -/
theorem Consistent.reclaimExpired (consistent : table.Consistent) (queue : QueueName)
    (now : Instant) : (table.reclaimExpired queue now).Consistent ∧
      Reclaimed (fun other => decide (other = queue)) now table.rows
        (table.reclaimExpired queue now).rows := by
  have expired : ∀ row ∈ (table.rows.filter (Row.expired queue now)).take reclaimBatch,
      row.expired queue now = true := fun row listed =>
    (List.mem_filter.mp (List.mem_of_mem_take listed)).2
  obtain ⟨rest, split⟩ := Multiset.le_iff_exists_add.mp
    (show (((table.rows.filter (Row.expired queue now)).take reclaimBatch : List Row) :
        Multiset Row) ≤ table.rows from
      ((List.take_sublist _ _).trans List.filter_sublist).subperm)
  obtain ⟨kept, rows⟩ := consistent.reclaim_batch _ rest split expired
  refine ⟨kept, _, rest, split, rows, expired, ?_⟩
  simp [List.countP_eq_length_filter]

/-- The depth of a queue, whatever order its rows are in. -/
theorem depth_eq (table : Table) (queue : QueueName) :
    table.depth queue = queueDepth table.rows queue :=
  depthIn_coe _ _

end Table

namespace MemoryJobStore

/-- The job table a store stands for. -/
def jobs (store : MemoryJobStore) : JobTable := ⟨store.table.rows, store.drawn⟩

variable {bounds : JobBounds} {entropy : Entropy} {store : MemoryJobStore}

/-- The row a held token names. -/
private theorem rowForLease_some {table : Table} {token : LeaseToken} {row : Row}
    (found : table.rowForLease token = some row) :
    row ∈ table.rows ∧ row.lease = some token := by
  rw [Table.rowForLease] at found
  exact ⟨List.mem_of_find?_eq_some found, by simpa using List.find?_some found⟩

/-- No job is found for a token exactly where none holds it. -/
private theorem rowForLease_none {table : Table} {token : LeaseToken} :
    table.rowForLease token = none ↔ ∀ row ∈ table.rows, row.lease ≠ some token := by
  simp [Table.rowForLease]

/-- A held token names one row. -/
private theorem rowForLease_unique (consistent : store.table.Consistent)
    (sound : store.jobs.Sound entropy) {token : LeaseToken} {row : Row}
    (found : store.table.rowForLease token = some row) {other : Row}
    (member : other ∈ store.table.rows) (held : other.lease = some token) : other = row := by
  obtain ⟨listed, also⟩ := rowForLease_some found
  exact eq_of_key consistent.ids member listed
    (sound.tokens other member row listed token held also)

/-! ## Every call is a transition -/

/-- Enqueueing keeps the indexes consistent, and is a transition of the job table. -/
theorem enqueue_refines (fresh : entropy.Fresh) (consistent : store.table.Consistent)
    (sound : store.jobs.Sound entropy) (job : NewJob) (now : Instant) :
    (store.enqueue bounds entropy job now).2.table.Consistent ∧
      JobStep bounds entropy .none store.jobs
        (.enqueue job now, .enqueued (store.enqueue bounds entropy job now).1)
        ((store.enqueue bounds entropy job now).2.jobs) := by
  rw [enqueue]
  cases asked : job.idempotencyKey.bind fun key => store.table.keys (job.queue, key) with
  | some existing =>
      obtain ⟨key, wanted, held⟩ := Option.bind_eq_some_iff.mp asked
      obtain ⟨row, member, rfl, holds⟩ := (consistent.keyed _ _ _).mp held
      exact ⟨consistent, .duplicate now wanted member (.of_holdsKey holds)⟩
  | none =>
      have depth : store.table.depth job.queue =
          depthIn (RowLimits.none.inQueue job.queue) store.jobs.rows := store.table.depth_eq job.queue
      have absent : ∀ key, job.idempotencyKey = some key →
          ∀ row ∈ (store.table.rows : Multiset Row), ¬ row.HoldsKey job.queue key := by
        intro key wanted row member holds
        rw [wanted, Option.bind_some] at asked
        have held := (consistent.keyed job.queue key row.job.id).mpr ⟨row, member, rfl, holds⟩
        rw [asked] at held
        cases held
      have free : RowLimits.none.KeyFree store.table.rows job := RowLimits.none_keyFree.mpr absent
      simp only
      by_cases full : store.table.depth job.queue ≥ bounds.maxQueueDepth
      · rw [if_pos full]
        exact ⟨consistent, .full now free (depth ▸ full)⟩
      · rw [if_neg full, draw]
        cases given : entropy store.drawn with
        | none =>
            exact ⟨consistent, .enqueueEntropy now free (depth ▸ Nat.lt_of_not_le full) given⟩
        | some id =>
            have unused := fresh.unissued given
            have others : store.table.rows.filter (fun other => other.job.id ≠ id) =
                store.table.rows := by
              rw [List.filter_eq_self]
              intro other member
              have issued := sound.issuedIds other member
              exact decide_eq_true fun same => unused (same ▸ issued)
            have distinct : ∀ row ∈ store.table.rows, row.job.id ≠ id := fun row member same =>
              unused (same ▸ sound.issuedIds row member)
            simp only [others]
            refine ⟨consistent.add distinct job now absent, ?_⟩
            exact .created now free (depth ▸ Nat.lt_of_not_le full) given

/-- The entry of the index a claim hands out: the first runnable job. -/
private theorem candidate_some {table : Table} (consistent : table.Consistent) {queue : QueueName}
    {now : Instant} {key : ReadyKey} {id : JobId}
    (found : table.ready.find? (fun (key, id) => decide ((ofLex key).1 ≤ now) &&
      (table.get id).any fun row => row.job.queue = queue && row.job.state = .ready) =
        some (key, id)) :
    ∃ row ∈ table.rows, row.job.id = id ∧ key = readyKey row.job.runAt id ∧
      row.runnable queue now = true ∧
      ∀ other ∈ table.rows, other.runnable queue now = true →
        toLex (row.job.runAt, row.job.id) ≤ toLex (other.job.runAt, other.job.id) := by
  obtain ⟨listed, passes, least⟩ := OrderedMap.find?_some found
  obtain ⟨row, member, ready, rfl, rfl⟩ := (consistent.indexed key id).mp listed
  simp only [consistent.get_mem member, Option.any_some, Bool.and_eq_true, decide_eq_true_eq]
    at passes
  refine ⟨row, member, rfl, rfl, ?_, ?_⟩
  · have due : row.job.runAt ≤ now := passes.1
    simp [Row.runnableIn, ready, passes.2, due]
  · intro other also runnable
    obtain ⟨otherReady, otherQueue, due⟩ := Row.ready_of_runnable runnable
    have stored : (readyKey other.job.runAt other.job.id, other.job.id) ∈ table.ready :=
      (consistent.indexed _ _).mpr ⟨other, also, otherReady, rfl, rfl⟩
    refine least _ stored ?_
    simp only [consistent.get_mem also, Option.any_some, otherQueue, otherReady, decide_true,
      Bool.and_true, decide_eq_true_eq]
    exact due

/-- Where the index has nothing to hand out, no job is runnable. -/
private theorem candidate_none {table : Table} (consistent : table.Consistent) {queue : QueueName}
    {now : Instant}
    (found : table.ready.find? (fun (key, id) => decide ((ofLex key).1 ≤ now) &&
      (table.get id).any fun row => row.job.queue = queue && row.job.state = .ready) = none) :
    ∀ row ∈ table.rows, row.runnable queue now = false := by
  intro row member
  by_contra runs
  obtain ⟨ready, inQueue, due⟩ := Row.ready_of_runnable (Bool.not_eq_false _ ▸ runs)
  have stored : (readyKey row.job.runAt row.job.id, row.job.id) ∈ table.ready :=
    (consistent.indexed _ _).mpr ⟨row, member, ready, rfl, rfl⟩
  have fails := OrderedMap.find?_none.mp found _ stored
  simp only [consistent.get_mem member, Option.any_some, inQueue, ready, decide_true,
    Bool.and_true, decide_eq_false_iff_not] at fails
  exact fails due

/-- Claiming keeps the indexes consistent, and is a transition of the job table, the panic
included. -/
theorem claim_refines (consistent : store.table.Consistent)
    (queue : QueueName) (now : Instant) (lease : Nat) :
    (store.claim entropy queue now lease).2.table.Consistent ∧
      JobStep bounds entropy .none store.jobs
        (.claim queue now lease, .ofClaim (store.claim entropy queue now lease).1)
        ((store.claim entropy queue now lease).2.jobs) := by
  obtain ⟨kept, reclaimed⟩ := consistent.reclaimExpired queue now
  rw [claim]
  simp only
  generalize store.table.reclaimExpired queue now = table at kept reclaimed ⊢
  split
  · next nothing =>
      exact ⟨kept, .idle lease reclaimed (candidate_none kept nothing)⟩
  next key id found =>
  obtain ⟨row, member, rfl, rfl, runnable, least⟩ := candidate_some kept found
  obtain ⟨rest, split⟩ : ∃ rest, (table.rows : Multiset Row) = row ::ₘ rest :=
    Multiset.exists_cons_of_mem member
  have first : row.First (RowLimits.none.inQueue queue) now rest := by
    refine ⟨runnable, fun other listed => least other ?_⟩
    rw [← Multiset.mem_coe, split]
    exact Multiset.mem_cons_of_mem listed
  simp only [draw]
  cases given : entropy store.drawn with
  | none =>
      have step : JobStep bounds entropy .none store.jobs _ _ :=
        .claimEntropy lease (split ▸ reclaimed) first given
      rw [← split] at step
      exact ⟨kept, step⟩
  | some token =>
      have stored : Table.get { table with
          ready := table.ready.erase (readyKey row.job.runAt row.job.id) } row.job.id = some row :=
        kept.get_mem member
      simp only [stored]
      cases ends : leaseEnd now lease with
      | some expiresAt =>
          obtain ⟨fits, rfl⟩ := leaseEnd_eq_some.mp ends
          refine ⟨kept.put_leased member (by simp [Row.claim]) (fun _ => rfl) (fun _ => rfl)
            fun _ => rfl, ?_⟩
          obtain ⟨others, before, after⟩ := kept.put_rows member (Row.claim token now lease)
          cases (Multiset.cons_inj_right row).mp (split.symm.trans before)
          have step : JobStep bounds entropy .none store.jobs _ _ :=
            .claimed lease (split ▸ reclaimed) first given not_false not_false fits
          rw [← after] at step
          exact step
      | none =>
          refine ⟨kept.put_leased member (by simp [Row.overrun]) (fun _ => rfl) (fun _ => rfl)
            fun _ => rfl, ?_⟩
          obtain ⟨others, before, after⟩ := kept.put_rows member (Row.overrun token now)
          cases (Multiset.cons_inj_right row).mp (split.symm.trans before)
          have step : JobStep bounds entropy .none store.jobs _ _ :=
            .claimPanicked lease (split ▸ reclaimed) first given trivial (leaseEnd_eq_none.mp ends)
          rw [← after] at step
          exact step

/-- Completing keeps the indexes consistent, and is a transition of the job table. -/
theorem complete_refines (consistent : store.table.Consistent)
    (sound : store.jobs.Sound entropy) (token : LeaseToken) (now : Instant) :
    (store.complete token now).2.table.Consistent ∧
      JobStep bounds entropy .none store.jobs
        (.complete token now, .completed (store.complete token now).1)
        ((store.complete token now).2.jobs) := by
  rw [complete]
  cases found : store.table.rowForLease token with
  | none =>
      refine ⟨consistent, .completeRefused now ?_⟩
      intro row member held
      exact (rowForLease_none.mp found row member held).elim
  | some row =>
      obtain ⟨member, held⟩ := rowForLease_some found
      have refused : row.job.state ≠ .leased → row.job.state ≠ .completed →
          JobStep bounds entropy .none store.jobs (.complete token now,
            .completed (.error .leaseNotHeld)) store.jobs := by
        intro unleased unfinished
        refine .completeRefused now ?_
        intro other listed also
        rw [rowForLease_unique consistent sound found listed also]
        exact ⟨unleased, unfinished⟩
      cases state : row.job.state with
      | leased =>
          simp only [state]
          obtain ⟨rest, before, after⟩ := consistent.put_rows member (Row.complete now)
          refine ⟨consistent.put_quiet member (by simp [state]) (by simp [Row.complete])
            (fun _ => rfl) (fun _ => rfl) fun _ => rfl, ?_⟩
          have step : JobStep bounds entropy .none store.jobs _ _ :=
            .completed now before held state
          rw [← after] at step
          exact step
      | completed =>
          simp only [state]
          exact ⟨consistent, .completedAgain now member held state⟩
      | ready | dead =>
          simp only [state]
          exact ⟨consistent, refused (by simp [state]) (by simp [state])⟩

/-- Recording a failure keeps the indexes consistent, and is a transition of the job table. -/
theorem fail_refines (consistent : store.table.Consistent) (sound : store.jobs.Sound entropy)
    (token : LeaseToken) (failure : FailureKind) (nextRunAt now : Instant) :
    (store.fail token failure nextRunAt now).2.table.Consistent ∧
      JobStep bounds entropy .none store.jobs
        (.fail token failure nextRunAt now, .failed (store.fail token failure nextRunAt now).1)
        ((store.fail token failure nextRunAt now).2.jobs) := by
  rw [fail]
  cases found : store.table.rowForLease token with
  | none =>
      refine ⟨consistent, .failRefused failure nextRunAt now ?_⟩
      intro row member held
      exact (rowForLease_none.mp found row member held).elim
  | some row =>
      obtain ⟨member, held⟩ := rowForLease_some found
      simp only
      by_cases leased : row.job.state = .leased
      · rw [if_neg (not_not.mpr leased)]
        have unready : row.job.state ≠ .ready := by simp [leased]
        by_cases spent : row.spent failure = true
        · rw [if_pos spent]
          obtain ⟨rest, before, after⟩ := consistent.put_rows member (Row.bury failure now)
          refine ⟨consistent.put_quiet member unready (by simp [Row.bury]) (fun _ => rfl)
            (fun _ => rfl) fun _ => rfl, ?_⟩
          have step : JobStep bounds entropy .none store.jobs _ _ :=
            .buried nextRunAt now before held leased spent
          rw [← after] at step
          exact step
        · rw [if_neg spent]
          obtain ⟨rest, before, after⟩ :=
            consistent.put_rows member (Row.reschedule failure nextRunAt now)
          refine ⟨consistent.put_ready member unready rfl (fun _ => rfl) (fun _ => rfl)
            fun _ => rfl, ?_⟩
          have step : JobStep bounds entropy .none store.jobs _ _ :=
            .rescheduled nextRunAt now before held leased (Bool.eq_false_iff.mpr spent)
          rw [← after] at step
          exact step
      · rw [if_pos leased]
        refine ⟨consistent, .failRefused failure nextRunAt now ?_⟩
        intro other listed also
        rwa [rowForLease_unique consistent sound found listed also]

/-- Releasing keeps the indexes consistent, and is a transition of the job table. -/
theorem release_refines (consistent : store.table.Consistent)
    (sound : store.jobs.Sound entropy) (token : LeaseToken) (now : Instant) :
    (store.release token now).2.table.Consistent ∧
      JobStep bounds entropy .none store.jobs
        (.release token now, .released (store.release token now).1)
        ((store.release token now).2.jobs) := by
  rw [release]
  cases found : store.table.rowForLease token with
  | none =>
      refine ⟨consistent, .releaseRefused now ?_⟩
      intro row member held
      exact (rowForLease_none.mp found row member held).elim
  | some row =>
      obtain ⟨member, held⟩ := rowForLease_some found
      simp only
      by_cases leased : row.job.state = .leased
      · rw [if_neg (not_not.mpr leased)]
        obtain ⟨rest, before, after⟩ := consistent.put_rows member (Row.release now)
        refine ⟨consistent.put_ready member (by simp [leased]) rfl (fun _ => rfl) (fun _ => rfl)
          fun _ => rfl, ?_⟩
        have step : JobStep bounds entropy .none store.jobs _ _ :=
          .released now before held leased
        rw [← after] at step
        exact step
      · rw [if_pos leased]
        refine ⟨consistent, .releaseRefused now ?_⟩
        intro other listed also
        rwa [rowForLease_unique consistent sound found listed also]

/-- Reviving keeps the indexes consistent, and is a transition of the job table. -/
theorem revive_refines (consistent : store.table.Consistent) (id : JobId) (now : Instant) :
    (store.revive id now).2.table.Consistent ∧
      JobStep bounds entropy .none store.jobs (.revive id now, .revived (store.revive id now).1)
        ((store.revive id now).2.jobs) := by
  rw [revive]
  cases found : store.table.get id with
  | none => exact ⟨consistent, .reviveUnknown now (Table.get_none.mp found)⟩
  | some row =>
      obtain ⟨member, rfl⟩ := Table.get_some found
      simp only
      by_cases dead : row.job.state = .dead
      · rw [if_neg (not_not.mpr dead)]
        obtain ⟨rest, before, after⟩ := consistent.put_rows member (Row.revive now)
        refine ⟨consistent.put_ready member (by simp [dead]) rfl (fun _ => rfl) (fun _ => rfl)
          fun _ => rfl, ?_⟩
        have step : JobStep bounds entropy .none store.jobs _ _ :=
          .revived now before dead
        rw [← after] at step
        exact step
      · rw [if_pos dead]
        exact ⟨consistent, .reviveAlive now member dead⟩

/-- What holds of a store between calls. -/
structure Sound (entropy : Entropy) (store : MemoryJobStore) : Prop where
  consistent : store.table.Consistent
  jobs : store.jobs.Sound entropy

/-- The order rows are scanned in does not matter. -/
theorem Sound.rescanned {scanned : MemoryJobStore} (sound : store.Sound entropy)
    (rescanned : store.Rescanned scanned) :
    scanned.Sound entropy ∧ scanned.jobs = store.jobs := by
  obtain ⟨rows, keys, ready, drawn⟩ := rescanned
  have same : scanned.jobs = store.jobs := by
    rw [MemoryJobStore.jobs, MemoryJobStore.jobs, drawn, Multiset.coe_eq_coe.mpr rows]
  have whole : (store.table.rows : Multiset Row) = scanned.table.rows :=
    Multiset.coe_eq_coe.mpr rows
  refine ⟨⟨⟨?_, ?_, ?_⟩, same ▸ sound.jobs⟩, same⟩
  · exact (rows.map _).nodup_iff.mp sound.consistent.ids
  · rw [← whole, ← ready]
    exact sound.consistent.indexed
  · rw [← whole, ← keys]
    exact sound.consistent.keyed

/-- **Every call of a sound store is a transition of the job table** and leaves
it sound. -/
theorem Sound.run (bounds : JobBounds) (fresh : entropy.Fresh) (sound : store.Sound entropy) (op : JobOp) :
    (store.run bounds entropy op).2.Sound entropy ∧
      JobStep bounds entropy .none store.jobs (op, (store.run bounds entropy op).1)
        ((store.run bounds entropy op).2.jobs) := by
  obtain ⟨consistent, jobs⟩ := sound
  have step : (store.run bounds entropy op).2.table.Consistent ∧
      JobStep bounds entropy .none store.jobs (op, (store.run bounds entropy op).1)
        ((store.run bounds entropy op).2.jobs) := by
    cases op with
    | enqueue job now => exact enqueue_refines fresh consistent jobs job now
    | claim queue now lease => exact claim_refines consistent queue now lease
    | complete lease now => exact complete_refines consistent jobs lease now
    | fail lease failure nextRunAt now =>
        exact fail_refines consistent jobs lease failure nextRunAt now
    | release lease now => exact release_refines consistent jobs lease now
    | revive id now => exact revive_refines consistent id now
    | read id =>
        refine ⟨consistent, ?_⟩
        simp only [MemoryJobStore.run, read]
        cases stored : store.table.get id with
        | none => exact .missing (Table.get_none.mp stored)
        | some row =>
            obtain ⟨member, rfl⟩ := Table.get_some stored
            exact .found member not_false
    | depth queue =>
        refine ⟨consistent, ?_⟩
        simp only [MemoryJobStore.run, depth, store.table.depth_eq]
        exact .depth store.jobs queue
  exact ⟨⟨step.1, jobs.step fresh step.2⟩, step.2⟩

/-- An empty store is sound. -/
theorem empty_sound : empty.Sound entropy where
  consistent := Table.empty_consistent
  jobs := JobTable.sound_empty

end MemoryJobStore

/-- **The in-memory store refines the job table.** -/
theorem memory_refines (bounds : JobBounds) {entropy : Entropy} (fresh : entropy.Fresh) :
    TransitionSystem.Refinement (memorySystem bounds entropy) (jobSystem bounds entropy .none)
      (MemoryJobStore.Sound entropy) MemoryJobStore.jobs where
  initial store start := by
    cases start
    exact ⟨MemoryJobStore.empty_sound, rfl⟩
  step before label after sound step := by
    obtain ⟨scanned, rescanned, ran⟩ := step
    obtain ⟨still, same⟩ := sound.rescanned rescanned
    have taken := still.run bounds fresh label.1
    rw [ran, same] at taken
    exact taken

end Renvor
