import Renvor.Auth.AttemptStore

/-! # What a call does to the attempt table

In a table with one row for each dimension and bucket, an observation exchanges
the row of its key and leaves the others, whichever of its statements fail
(`Renvor.SqlxAttemptRepository.observe_counts`).
-/

namespace Renvor

open Foundation

namespace AttemptTable

/-- One row for each dimension and bucket. -/
def Keyed (rows : List AttemptRow) : Prop := (rows.map AttemptRow.key).Nodup

/-- The row of a key. -/
def held (rows : List AttemptRow) (key : Int × Int) : Option AttemptRow :=
  rows.find? fun row => row.key = key

variable {rows : List AttemptRow} {row : AttemptRow} {key : Int × Int}

theorem held_mem (holds : held rows key = some row) : row ∈ rows ∧ row.key = key := by
  unfold held at holds
  exact ⟨List.mem_of_find?_eq_some holds, by simpa using List.find?_some holds⟩

theorem held_none : held rows key = none ↔ ∀ row ∈ rows, row.key ≠ key := by
  unfold held
  simp

theorem Keyed.held (keyed : Keyed rows) (member : row ∈ rows) (same : row.key = key) :
    AttemptTable.held rows key = some row := by
  cases holds : AttemptTable.held rows key with
  | none => exact (held_none.mp holds row member same).elim
  | some other =>
      obtain ⟨among, equal⟩ := held_mem holds
      rw [eq_of_key keyed among member (equal.trans same.symm)]

theorem Keyed.filter {kept : AttemptRow → Bool} (keyed : Keyed rows) : Keyed (rows.filter kept) :=
  keyed.sublist (List.filter_sublist.map _)

/-- Taking rows out takes a key's row out or leaves it. -/
theorem Keyed.held_filter (keyed : Keyed rows) (kept : AttemptRow → Bool) (key : Int × Int) :
    AttemptTable.held (rows.filter kept) key = (AttemptTable.held rows key).filter kept := by
  cases holds : AttemptTable.held rows key with
  | none =>
      exact held_none.mpr fun row member =>
        held_none.mp holds row (List.mem_filter.mp member).1
  | some row =>
      obtain ⟨member, same⟩ := held_mem holds
      rw [Option.filter_some]
      split
      next stays => exact keyed.filter.held (List.mem_filter.mpr ⟨member, stays⟩) same
      next gone =>
        refine held_none.mpr fun other among equal => ?_
        obtain ⟨among, stays⟩ := List.mem_filter.mp among
        obtain rfl := eq_of_key keyed among member (equal.trans same.symm)
        exact gone stays

theorem held_eq {other : List AttemptRow} (also : Keyed other)
    (same : ∀ row, row.key = key → (row ∈ rows ↔ row ∈ other)) :
    AttemptTable.held rows key = AttemptTable.held other key := by
  cases holds : AttemptTable.held rows key with
  | none =>
      refine (held_none.mpr fun row member named => ?_).symm
      exact held_none.mp holds row ((same row named).mpr member) named
  | some row =>
      obtain ⟨member, named⟩ := held_mem holds
      exact (also.held ((same row named).mp member) named).symm

end AttemptTable

/-- The key an observation counts on. -/
def AttemptObservation.key (observation : AttemptObservation) : Int × Int :=
  (observation.dimension.code, observation.bucket.index)

/-- The row the upsert makes where there is none. -/
def AttemptObservation.row (observation : AttemptObservation) : AttemptRow where
  dimension := observation.dimension.code
  bucket := observation.bucket.index
  windowStart := observation.windowStart
  currentCount := 0
  previousCount := 0
  expiresAt := observation.expiresAt

/-- The counters an observation answers with. -/
def AttemptObservation.state (observation : AttemptObservation) (stored : AttemptRow) :
    AttemptState :=
  let counts := observation.next stored.windowStart stored.currentCount.toNat
    stored.previousCount.toNat
  { current := counts.1, previous := counts.2, windowStart := observation.windowStart }

/-- A row with an observation's counters. -/
def AttemptObservation.written (observation : AttemptObservation) (state : AttemptState)
    (row : AttemptRow) : AttemptRow :=
  { row with
    windowStart := observation.windowStart
    currentCount := SqlxAttemptRepository.countNumber state.current
    previousCount := SqlxAttemptRepository.countNumber state.previous
    expiresAt := observation.expiresAt }

/-- The row an observation leaves. -/
def AttemptObservation.counted (observation : AttemptObservation) (stored : AttemptRow) :
    AttemptRow :=
  observation.written (observation.state stored) stored

namespace AttemptTable

variable {rows : List AttemptRow} {key : Int × Int} (observation : AttemptObservation)

/-- The table with the row of the observation's key there. -/
def ensured (rows : List AttemptRow) : List AttemptRow :=
  if rows.any (fun other => other.key = observation.row.key) = true then rows
  else observation.row :: rows

/-- The row an observation finds: the stored one, or the one it makes. -/
def stored (rows : List AttemptRow) : AttemptRow :=
  (held rows observation.key).getD observation.row

/-- The table with the observation counted. -/
def settled (rows : List AttemptRow) : List AttemptRow :=
  updateWhere (fun row => row.key = observation.key)
    (observation.written (observation.state (stored observation rows))) (ensured observation rows)

variable {observation}

theorem accepted_row : observation.row.accepted = true := by
  have within := observation.dimension.code_within
  have below := observation.bucket.below
  have most : AttemptBuckets.max = 1048576 := rfl
  simp only [AttemptRow.accepted, AttemptObservation.row, Bool.and_eq_true]
  refine ⟨⟨⟨⟨⟨decide_eq_true within.1, decide_eq_true within.2⟩, ?_⟩, ?_⟩, rfl⟩, rfl⟩
  · exact decide_eq_true (Int.natCast_nonneg _)
  · apply decide_eq_true
    omega

theorem ensure_ok : ensure observation.row rows = .ok ((), ensured observation rows) := by
  unfold ensure ensured
  split
  · rfl
  · rw [if_pos accepted_row]

theorem Keyed.ensured (keyed : Keyed rows) : Keyed (ensured observation rows) := by
  unfold AttemptTable.ensured
  split
  · exact keyed
  next absent =>
    refine List.nodup_cons.mpr ⟨fun member => absent ?_, keyed⟩
    obtain ⟨row, among, same⟩ := List.mem_map.mp member
    exact List.any_eq_true.mpr ⟨row, among, decide_eq_true same⟩

theorem held_ensured (observation : AttemptObservation) (rows : List AttemptRow) :
    held (ensured observation rows) observation.key =
    some (stored observation rows) := by
  unfold ensured stored
  split
  next present =>
    obtain ⟨row, among, same⟩ := List.any_eq_true.mp present
    cases holds : held rows observation.key with
    | none => exact (held_none.mp holds row among (of_decide_eq_true same)).elim
    | some row => rfl
  next absent =>
    have none : held rows observation.key = none := held_none.mpr fun row among same =>
      absent (List.any_eq_true.mpr ⟨row, among, decide_eq_true same⟩)
    rw [none]
    exact List.find?_cons_of_pos (decide_eq_true rfl)

/-- A clock that is behind a row leaves the table. -/
theorem ensured_behind (behind : observation.windowStart < (stored observation rows).windowStart) :
    ensured observation rows = rows := by
  unfold ensured
  split
  · rfl
  next absent =>
    have none : held rows observation.key = none := held_none.mpr fun row among same =>
      absent (List.any_eq_true.mpr ⟨row, among, decide_eq_true same⟩)
    unfold stored at behind
    rw [none] at behind
    exact (lt_irrefl _ behind).elim

theorem held_ensured_other (other : key ≠ observation.key) :
    held (ensured observation rows) key = held rows key := by
  unfold ensured
  split
  · rfl
  · exact List.find?_cons_of_neg (by simpa using fun same => other same.symm)

theorem Keyed.settled (keyed : Keyed rows) : Keyed (settled observation rows) := by
  unfold Keyed AttemptTable.settled
  rw [map_updateWhere]
  · exact keyed.ensured
  · exact fun row _ => rfl

/-- **The row of the key is exchanged.** -/
theorem held_settled (observation : AttemptObservation) (keyed : Keyed rows) :
    held (settled observation rows) observation.key = some (observation.counted (stored observation rows)) := by
  obtain ⟨member, same⟩ := held_mem (held_ensured observation rows)
  refine keyed.settled.held ?_ same
  exact mem_updateWhere.mpr (.inl ⟨_, member, decide_eq_true same, rfl⟩)

/-- **The rows of other keys stay.** -/
theorem held_settled_other (keyed : Keyed rows) (other : key ≠ observation.key) :
    held (settled observation rows) key = held rows key := by
  refine Eq.trans ?_ (held_ensured_other other)
  refine held_eq keyed.ensured fun row same => ?_
  unfold settled
  rw [mem_updateWhere]
  constructor
  · rintro (⟨before, _, hit, rfl⟩ | ⟨member, _⟩)
    · exact (other (same.symm.trans (of_decide_eq_true hit))).elim
    · exact member
  · intro member
    exact .inr ⟨member, decide_eq_false fun equal => other (same.symm.trans equal)⟩

theorem affected_one (keyed : Keyed rows) :
    ((ensured observation rows).filter fun row => row.key = observation.key).length = 1 := by
  obtain ⟨member, same⟩ := held_mem (held_ensured observation rows)
  have only : ∀ other ∈ ensured observation rows, decide (other.key = observation.key) = true →
      other.key = (stored observation rows).key :=
    fun other _ hit => (of_decide_eq_true hit).trans same.symm
  obtain ⟨_, _, _, one⟩ := updateWhere_one id keyed.ensured member (decide_eq_true same) only
  exact one

end AttemptTable

namespace SqlxAttemptRepository

open AttemptTable

variable {rows : List AttemptRow} {observation : AttemptObservation}
  {faults : Nat → Option DatabaseErrorKind}

/-- The first statement's failure, which leaves the table, or the result. -/
def resultOr {Result : Type} (fault : Option DatabaseErrorKind)
    (result : Except DatabaseErrorKind Result × List AttemptRow) (rows : List AttemptRow) :
    Except DatabaseErrorKind Result × List AttemptRow :=
  match fault with
  | some kind => (.error kind, rows)
  | none => result

theorem bucketNumber_ok (bucket : AttemptBucket) :
    bucketNumber bucket = .ok (bucket.index : Int) := by
  have below := bucket.below
  have most : AttemptBuckets.max = 1048576 := rfl
  unfold bucketNumber i32Max
  rw [if_pos]
  omega

theorem lock_ok : AttemptTable.lock observation.key (ensured observation rows) =
    .ok (some ((AttemptTable.stored observation rows).windowStart,
      (AttemptTable.stored observation rows).currentCount,
      (AttemptTable.stored observation rows).previousCount), ensured observation rows) := by
  have holds := held_ensured observation rows
  unfold held at holds
  simp only [AttemptTable.lock, holds, Option.map_some]

/-- What an observation answers and leaves when nothing fails: it counts on the
row of its key, or refuses a clock that is behind the row. -/
def outcome (observation : AttemptObservation) (rows : List AttemptRow) :
    AttemptOutcome × List AttemptRow :=
  if (AttemptTable.stored observation rows).windowStart > observation.windowStart then
    (.clockRegressed, ensured observation rows)
  else
    (.counted (observation.state (AttemptTable.stored observation rows)), settled observation rows)

/-- How many statements follow the lock. -/
def afterLock (observation : AttemptObservation) (rows : List AttemptRow) : Nat :=
  if (AttemptTable.stored observation rows).windowStart > observation.windowStart then 1 else 2

/-- The decision and the commit. -/
private theorem decide_leads (keyed : Keyed rows) {session : Session (List AttemptRow) Unit}
    (works : session.working = ensured observation rows) (committed : session.committed = rows) :
    Client.Leads faults (do
        let outcome ← decide observation observation.key
          (AttemptTable.stored observation rows).windowStart
          (AttemptTable.stored observation rows).currentCount
          (AttemptTable.stored observation rows).previousCount
        Client.commit id
        return outcome)
      session fun result after => (result, after.committed) =
        resultOr (Client.firstFault faults session.statements (afterLock observation rows))
          (.ok (outcome observation rows).1, (outcome observation rows).2) rows := by
  apply Client.Leads.bind
  unfold decide afterLock outcome
  split
  next regressed =>
    apply Client.Leads.pure
    apply Client.Leads.bind
    apply Client.Leads.commit
    · intro kind fails
      rw [Client.firstFault_some fails, ← committed]
      rfl
    · intro works'
      rw [Client.firstFault_none works', ← works]
      rfl
  next =>
    apply Client.Leads.bind
    apply Client.Leads.query rfl
    · intro kind fails
      rw [Client.firstFault_some fails, ← committed]
      rfl
    · intro writes
      rw [works, affected_one keyed]
      dsimp only
      rw [if_neg (by decide)]
      apply Client.Leads.pure
      apply Client.Leads.bind
      apply Client.Leads.commit
      · intro kind fails
        rw [Client.firstFault_none writes, Client.firstFault_some fails, ← committed]
        rfl
      · intro commits
        rw [Client.firstFault_none writes, Client.firstFault_none commits]
        rfl

/-- **What an observation does**, whichever of its statements fail. -/
theorem observe_counts (keyed : Keyed rows) :
    perform faults rows (observe observation) =
      resultOr (Client.firstFault faults 0 (afterLock observation rows + 3))
        (.ok (outcome observation rows).1, (outcome observation rows).2) rows := by
  suffices leads : Client.Leads faults (observe observation) (.start rows ()) fun result after =>
      (result, after.committed) = _ from leads
  apply Client.Leads.bind
  apply Client.Leads.begin
  · intro kind fails
    have zeroth : faults 0 = some kind := fails
    rw [Client.firstFault_some zeroth]
    rfl
  intro begins
  have zeroth : faults 0 = none := begins
  rw [Client.firstFault_none zeroth]
  apply Client.Leads.bind
  apply Client.Leads.bind
  apply Client.Leads.ofExcept
  rw [bucketNumber_ok]
  apply Client.Leads.bind
  apply Client.Leads.query ensure_ok
  · intro kind fails
    have first : faults 1 = some kind := fails
    rw [Client.firstFault_some first]
    rfl
  intro ensures
  have first : faults 1 = none := ensures
  rw [Client.firstFault_none first]
  apply Client.Leads.bind
  apply Client.Leads.query lock_ok
  · intro kind fails
    have second : faults 2 = some kind := fails
    rw [Client.firstFault_some second]
    rfl
  intro locks
  have second : faults 2 = none := locks
  rw [Client.firstFault_none second]
  exact Client.leads_bind.mp (decide_leads keyed rfl rfl)

/-- Whether pruning deletes a row. -/
def prunes (dimension : AttemptDimension) (lower count : Nat) (now : Instant)
    (row : AttemptRow) : Bool :=
  row.dimension = dimension.code && (lower : Int) ≤ row.bucket &&
    row.bucket < (lower + count : Nat) && row.expiresAt ≤ now

theorem expired_of_prunes {dimension : AttemptDimension} {lower count : Nat} {now : Instant}
    {row : AttemptRow} (gone : prunes dimension lower count now row = true) :
    row.expiresAt ≤ now := by
  unfold prunes at gone
  simp only [Bool.and_eq_true] at gone
  exact of_decide_eq_true gone.2

/-- **What pruning does.** -/
theorem prune_deletes {dimension : AttemptDimension} {lower count : Nat} {now : Instant} :
    perform faults rows (prune dimension lower count now) =
      resultOr (Client.firstFault faults 0 1)
        (.ok (rows.filter (prunes dimension lower count now)).length,
          rows.filter fun row => !prunes dimension lower count now row) rows := by
  suffices leads : Client.Leads faults (prune dimension lower count now) (.start rows ())
      fun result after => (result, after.committed) = _ from leads
  apply Client.Leads.autocommit rfl
  · intro kind fails
    have zeroth : faults 0 = some kind := fails
    rw [Client.firstFault_some zeroth]
    rfl
  · intro works
    have zeroth : faults 0 = none := works
    rw [Client.firstFault_none zeroth]
    rfl

/-- A result comes of statements none of which failed. -/
theorem resultOr_eq {Result : Type} {fault : Option DatabaseErrorKind}
    {result : Except DatabaseErrorKind Result × List AttemptRow}
    {did : Except DatabaseErrorKind Result} {after : List AttemptRow}
    (ends : resultOr fault result rows = (did, after)) :
    (∃ kind, fault = some kind ∧ did = .error kind ∧ after = rows) ∨
      fault = none ∧ result = (did, after) := by
  cases fault with
  | none => exact .inr ⟨rfl, ends⟩
  | some kind =>
      obtain ⟨rfl, rfl⟩ := Prod.mk.inj ends
      exact .inl ⟨kind, rfl, rfl, rfl⟩

end SqlxAttemptRepository

end Renvor
