import Renvor.Auth.AttemptStatements
import Renvor.Foundation.Machine

/-! # Pruning is not seen

Any number of admissions are in progress, a store call of one at a time. Deleting
expired rows between their calls changes no count they are told and no decision,
while no call reads a clock that is behind that of a pruning before it
(`Renvor.prunings_unseen`).
-/

namespace Renvor

open Foundation
open Foundation.Interleaving (Script)

/-- The attempt table and the admissions in progress, each with its clock
reading. -/
structure GuardWorld where
  rows : List AttemptRow
  running : Nat → Option (Instant × AbuseGuard.Guarding Admitted)

/-- An admission starts, one in progress goes on, or expired rows are pruned.
Statements fail as the environment has it, an answer may be lost, and the audit
sink takes an event or does not. -/
inductive GuardInput
  | admission (session : Nat) (flow : AttemptFlow) (keys : FlowKeys) (correlation : CorrelationId)
      (now : Instant)
  | proceed (session : Nat) (faults : Nat → Option DatabaseErrorKind)
      (lost : Option DatabaseErrorKind) (taken : Bool)
  | prune (dimension : AttemptDimension) (lower count : Nat) (now : Instant)
      (faults : Nat → Option DatabaseErrorKind)

inductive GuardAnswer
  | started
  | observed (now : Instant) (observation : AttemptObservation)
      (told : Except DatabaseErrorKind AttemptOutcome)
  | recorded (event : AuditEvent) (taken : Bool)
  | decided (decision : Except ServiceError Admitted)
  | pruned (now : Instant)
  | ignored

def GuardInput.prunes : GuardInput → Bool
  | prune .. => true
  | _ => false

/-- The clock reading of a call on the store. -/
def GuardAnswer.reading : GuardAnswer → Option Instant
  | observed now _ _ | pruned now => some now
  | _ => none

namespace GuardWorld

/-- No admission, and no attempt counted. -/
def empty : GuardWorld := ⟨[], fun _ => none⟩

/-- The admission of a session has come this far, or is over. -/
def become (world : GuardWorld) (session : Nat)
    (state : Option (Instant × AbuseGuard.Guarding Admitted)) : GuardWorld :=
  { world with running := Function.update world.running session state }

end GuardWorld

/-- One step of one admission, or a pruning. -/
def AbuseGuard.step (guard : AbuseGuard) (world : GuardWorld) :
    GuardInput → GuardWorld × GuardAnswer
  | .admission session flow keys correlation now => match world.running session with
      | some _ => (world, .ignored)
      | none => (world.become session (some (now, guard.admitAttempt flow keys correlation now)), .started)
  | .proceed session faults lost taken => match world.running session with
      | none => (world, .ignored)
      | some (_, .done admitted) => (world.become session none, .decided (.ok admitted))
      | some (_, .fail error) => (world.become session none, .decided (.error error))
      | some (now, .query (.observe observation) next) =>
          let (did, rows) := SqlxAttemptRepository.perform faults world.rows
            (SqlxAttemptRepository.observe observation)
          let told := match lost with
            | some kind => .error kind
            | none => did
          ({ world with rows }.become session (some (now, next told)),
            .observed now observation told)
      | some (now, .query (.record event) next) =>
          (world.become session (some (now, next taken)), .recorded event taken)
  | .prune dimension lower count now faults =>
      ({ world with rows := (SqlxAttemptRepository.perform faults world.rows
        (SqlxAttemptRepository.prune dimension lower count now)).2 }, .pruned now)

/-- Admissions and prunings in any order. -/
def AbuseGuard.machine (guard : AbuseGuard) : Machine GuardWorld GuardInput GuardAnswer where
  step := guard.step

/-- No call reads a clock that is behind that of a pruning before it. -/
def PrunedBefore (earlier later : GuardInput × GuardAnswer) : Prop :=
  earlier.1.prunes = true →
    ∀ was ∈ earlier.2.reading, ∀ now ∈ later.2.reading, was ≤ now

instance : DecidableRel PrunedBefore := fun earlier later =>
  inferInstanceAs (Decidable (earlier.1.prunes = true →
    ∀ was ∈ earlier.2.reading, ∀ now ∈ later.2.reading, was ≤ now))

/-! ## What an admission asks -/

/-- Every observation is the contract's, at the admission's reading. -/
def AbuseGuard.Observes (guard : AbuseGuard) (now : Instant) : GuardCall → Prop
  | .observe observation => ∃ dimension bucket,
      observation = (guard.contract.get dimension).observation dimension bucket now
  | .record _ => True

theorem AbuseGuard.count_asks (guard : AbuseGuard) (keys : FlowKeys) (now : Instant)
    (dimensions : List AttemptDimension) (refused : Bool) :
    (guard.count keys now dimensions refused).Asks (guard.Observes now) := by
  induction dimensions generalizing refused with
  | nil => trivial
  | cons dimension rest ih =>
      apply Script.Asks.bind (Script.asks_ofExcept _)
      intro key
      apply Script.Asks.bind (Script.asks_ofExcept _)
      intro bucket
      refine Script.Asks.bind ⟨⟨dimension, bucket, rfl⟩, fun _ => trivial⟩ fun reply => ?_
      cases reply with
      | error kind => trivial
      | ok outcome => exact ih _

theorem AbuseGuard.admission_asks (guard : AbuseGuard) (flow : AttemptFlow) (keys : FlowKeys)
    (correlation : CorrelationId) (now : Instant) :
    (guard.admitAttempt flow keys correlation now).Asks (guard.Observes now) := by
  apply Script.Asks.bind (guard.count_asks keys now flow.dimensions false)
  intro refused
  refine Script.Asks.bind ⟨trivial, fun _ => trivial⟩ fun taken => ?_
  split
  · trivial
  · split <;> trivial

/-! ## Expired rows -/

section Expired

variable {limit : AttemptLimit} {dimension : AttemptDimension} {bucket : AttemptBucket}
  {now : Instant} {row : AttemptRow}

/-- An expired row is two windows behind. -/
theorem AttemptLimit.expired_behind (limit : AttemptLimit)
    (expires : row.expiresAt = row.windowStart + limit.window + limit.window)
    (expired : row.expiresAt ≤ now) :
    row.windowStart < limit.windowStart now - limit.window := by
  have below : now < limit.windowStart now + limit.window := by
    rw [windowStart_eq]
    exact Windows.lt_start limit.window_pos now
  have bound : row.windowStart + limit.window + limit.window <
      limit.windowStart now + limit.window :=
    lt_of_le_of_lt (le_trans (le_of_eq expires.symm) expired) below
  exact Int.lt_sub_right_of_add_lt (Int.lt_of_add_lt_add_right bound)

/-- An expired row does not refuse the clock. -/
theorem AttemptLimit.expired_forward (limit : AttemptLimit)
    (expires : row.expiresAt = row.windowStart + limit.window + limit.window)
    (expired : row.expiresAt ≤ now) : ¬ limit.windowStart now < row.windowStart :=
  not_lt.mpr (le_trans (le_of_lt (limit.expired_behind expires expired))
    (Int.sub_le_self _ (Int.le_of_lt limit.window_pos)))

/-- A row that was just made counts one. -/
theorem AttemptObservation.next_row (observation : AttemptObservation) :
    observation.next observation.row.windowStart observation.row.currentCount.toNat
      observation.row.previousCount.toNat = (1, 0) := by
  have same : observation.row.windowStart = observation.windowStart := rfl
  unfold next
  rw [if_pos same]
  rfl

/-- **An expired row counts like none.** -/
theorem AttemptLimit.expired_state (limit : AttemptLimit)
    (expires : row.expiresAt = row.windowStart + limit.window + limit.window)
    (expired : row.expiresAt ≤ now) :
    (limit.observation dimension bucket now).state row =
      (limit.observation dimension bucket now).state (limit.observation dimension bucket now).row := by
  have behind := limit.expired_behind expires expired
  set observation := limit.observation dimension bucket now with asked
  have before : row.windowStart ≠ observation.previousWindowStart := ne_of_lt behind
  have different : row.windowStart ≠ observation.windowStart :=
    ne_of_lt (lt_of_lt_of_le behind (Int.sub_le_self _ (Int.le_of_lt limit.window_pos)))
  have expired : observation.next row.windowStart row.currentCount.toNat
      row.previousCount.toNat = (1, 0) := by
    unfold AttemptObservation.next
    rw [if_neg different, if_neg before]
  unfold AttemptObservation.state
  rw [expired, observation.next_row]

end Expired

/-! ## Tables alike -/

/-- A pruning so far read a clock at which the row is expired. -/
def ExpiredBy (past : List (GuardInput × GuardAnswer)) (row : AttemptRow) : Prop :=
  ∃ entry ∈ past, entry.1.prunes = true ∧ ∃ reading ∈ entry.2.reading, row.expiresAt ≤ reading

/-- A pair's row is the same in both tables, or was pruned from the first. -/
structure PairAlike (contract : AbuseContract) (past : List (GuardInput × GuardAnswer))
    (pruned full : List AttemptRow) (dimension : AttemptDimension) (bucket : AttemptBucket) :
    Prop where
  expires : ∀ row, AttemptTable.held full (dimension.code, bucket.index) = some row →
    row.expiresAt = row.windowStart + (contract.get dimension).window +
      (contract.get dimension).window
  alike : AttemptTable.held pruned (dimension.code, bucket.index) =
      AttemptTable.held full (dimension.code, bucket.index) ∨
    AttemptTable.held pruned (dimension.code, bucket.index) = none ∧
      ∃ row, AttemptTable.held full (dimension.code, bucket.index) = some row ∧ ExpiredBy past row

structure RowsAlike (contract : AbuseContract) (past : List (GuardInput × GuardAnswer))
    (pruned full : List AttemptRow) : Prop where
  prunedKeyed : AttemptTable.Keyed pruned
  fullKeyed : AttemptTable.Keyed full
  pairs : ∀ dimension bucket, PairAlike contract past pruned full dimension bucket

section Tables

variable {contract : AbuseContract} {past : List (GuardInput × GuardAnswer)}
  {pruned full : List AttemptRow} {dimension : AttemptDimension} {bucket : AttemptBucket}
  {entry : GuardInput × GuardAnswer} {now : Instant}

theorem RowsAlike.later (alike : RowsAlike contract past pruned full) :
    RowsAlike contract (past ++ [entry]) pruned full where
  prunedKeyed := alike.prunedKeyed
  fullKeyed := alike.fullKeyed
  pairs dimension bucket := by
    obtain ⟨expires, same | ⟨none, row, held, earlier, member, expired⟩⟩ :=
      alike.pairs dimension bucket
    · exact ⟨expires, .inl same⟩
    · exact ⟨expires, .inr ⟨none, row, held, earlier, List.mem_append_left _ member, expired⟩⟩

/-- What an observation finds counts alike in both tables. -/
theorem PairAlike.stored (alike : PairAlike contract past pruned full dimension bucket)
    (behind : ∀ row, ExpiredBy past row → row.expiresAt ≤ now) :
    let observation := (contract.get dimension).observation dimension bucket now
    AttemptTable.stored observation pruned = AttemptTable.stored observation full ∨
      AttemptTable.stored observation pruned = observation.row ∧
        observation.state (AttemptTable.stored observation full) =
          observation.state observation.row ∧
        ¬ observation.windowStart < (AttemptTable.stored observation full).windowStart := by
  intro observation
  obtain ⟨expires, same | ⟨none, row, held, expired⟩⟩ := alike
  · refine .inl ?_
    show (AttemptTable.held pruned (dimension.code, (bucket.index : Int))).getD _ =
      (AttemptTable.held full (dimension.code, (bucket.index : Int))).getD _
    rw [same]
  · have found : AttemptTable.stored observation full = row := by
      show (AttemptTable.held full (dimension.code, (bucket.index : Int))).getD _ = row
      rw [held]
      rfl
    have absent : AttemptTable.stored observation pruned = observation.row := by
      show (AttemptTable.held pruned (dimension.code, (bucket.index : Int))).getD _ = _
      rw [none]
      rfl
    rw [found]
    refine .inr ⟨absent, ?_, ?_⟩
    · exact (contract.get dimension).expired_state (expires row held) (behind row expired)
    · exact (contract.get dimension).expired_forward (expires row held) (behind row expired)

/-- A row an observation leaves is given by its counters and its key. -/
theorem AttemptObservation.counted_eq {observation : AttemptObservation} {row other : AttemptRow}
    (state : observation.state row = observation.state other) (key : row.key = other.key) :
    observation.counted row = observation.counted other := by
  obtain ⟨dimensions, buckets⟩ := Prod.mk.inj key
  unfold counted written
  rw [state, dimensions, buckets]

/-- Both tables with an observation counted are alike. -/
theorem RowsAlike.settled (alike : RowsAlike contract past pruned full)
    (counts : ((contract.get dimension).observation dimension bucket now).state
      (AttemptTable.stored ((contract.get dimension).observation dimension bucket now) pruned) =
      ((contract.get dimension).observation dimension bucket now).state
      (AttemptTable.stored ((contract.get dimension).observation dimension bucket now) full)) :
    RowsAlike contract past
      (AttemptTable.settled ((contract.get dimension).observation dimension bucket now) pruned)
      (AttemptTable.settled ((contract.get dimension).observation dimension bucket now) full) := by
  set observation := (contract.get dimension).observation dimension bucket now with asked
  have keys : (AttemptTable.stored observation pruned).key =
      (AttemptTable.stored observation full).key := by
    have first := (AttemptTable.held_mem
      (AttemptTable.held_ensured observation pruned)).2
    have second := (AttemptTable.held_mem
      (AttemptTable.held_ensured observation full)).2
    exact first.trans second.symm
  refine ⟨alike.prunedKeyed.settled, alike.fullKeyed.settled, fun other within => ?_⟩
  by_cases same : (other.code, (within.index : Int)) = observation.key
  · have first := AttemptTable.held_settled observation alike.prunedKeyed
    have second := AttemptTable.held_settled observation alike.fullKeyed
    constructor
    · intro row held
      rw [same] at held
      obtain rfl := Option.some.inj (second.symm.trans held)
      obtain rfl := AttemptDimension.code_inj (Prod.mk.inj same).1
      rfl
    · rw [same]
      refine .inl (first.trans (Eq.trans ?_ second.symm))
      rw [AttemptObservation.counted_eq counts keys]
  · obtain ⟨expires, related⟩ := alike.pairs other within
    constructor
    · rw [AttemptTable.held_settled_other alike.fullKeyed same]
      exact expires
    · rw [AttemptTable.held_settled_other alike.fullKeyed same,
        AttemptTable.held_settled_other alike.prunedKeyed same]
      exact related

/-- **An observation is answered alike**, and leaves the tables alike. -/
theorem RowsAlike.observe (alike : RowsAlike contract past pruned full)
    (dimension : AttemptDimension) (bucket : AttemptBucket)
    (behind : ∀ row, ExpiredBy past row → row.expiresAt ≤ now)
    (faults : Nat → Option DatabaseErrorKind) :
    let call := SqlxAttemptRepository.observe
      ((contract.get dimension).observation dimension bucket now)
    (SqlxAttemptRepository.perform faults pruned call).1 =
        (SqlxAttemptRepository.perform faults full call).1 ∧
      RowsAlike contract past (SqlxAttemptRepository.perform faults pruned call).2
        (SqlxAttemptRepository.perform faults full call).2 := by
  intro call
  set observation := (contract.get dimension).observation dimension bucket now with asked
  have finds := (alike.pairs dimension bucket).stored behind
  rw [← asked] at finds
  have states : observation.state (AttemptTable.stored observation pruned) =
      observation.state (AttemptTable.stored observation full) := by
    obtain same | ⟨fresh, state, _⟩ := finds
    · rw [same]
    · rw [fresh, state]
  have regresses : (AttemptTable.stored observation pruned).windowStart > observation.windowStart ↔
      (AttemptTable.stored observation full).windowStart > observation.windowStart := by
    obtain same | ⟨fresh, _, forward⟩ := finds
    · rw [same]
    · rw [fresh]
      exact ⟨fun less => (lt_irrefl _ less).elim, fun less => (forward less).elim⟩
  have statements : SqlxAttemptRepository.afterLock observation pruned =
      SqlxAttemptRepository.afterLock observation full := by
    unfold SqlxAttemptRepository.afterLock
    exact if_congr regresses rfl rfl
  rw [SqlxAttemptRepository.observe_counts alike.prunedKeyed,
    SqlxAttemptRepository.observe_counts alike.fullKeyed, statements]
  cases Client.firstFault faults 0 (SqlxAttemptRepository.afterLock observation full + 3) with
  | some kind => exact ⟨rfl, alike⟩
  | none =>
      show Except.ok _ = Except.ok _ ∧ RowsAlike contract past
        (SqlxAttemptRepository.outcome observation pruned).2
        (SqlxAttemptRepository.outcome observation full).2
      unfold SqlxAttemptRepository.outcome
      by_cases regressed : (AttemptTable.stored observation full).windowStart >
          observation.windowStart
      · rw [if_pos regressed, if_pos (regresses.mpr regressed),
          AttemptTable.ensured_behind regressed,
          AttemptTable.ensured_behind (regresses.mpr regressed)]
        exact ⟨rfl, alike⟩
      · rw [if_neg regressed, if_neg (fun less => regressed (regresses.mp less)), states]
        exact ⟨rfl, alike.settled states⟩

/-- **Pruning leaves the tables alike.** -/
theorem RowsAlike.prune {lower count : Nat} {faults : Nat → Option DatabaseErrorKind}
    (alike : RowsAlike contract past pruned full) :
    RowsAlike contract (past ++ [(.prune dimension lower count now faults, .pruned now)])
      (SqlxAttemptRepository.perform faults pruned
        (SqlxAttemptRepository.prune dimension lower count now)).2 full := by
  rw [SqlxAttemptRepository.prune_deletes]
  cases Client.firstFault faults 0 1 with
  | some kind => exact alike.later
  | none =>
      refine ⟨alike.prunedKeyed.filter, alike.fullKeyed, fun other within => ?_⟩
      obtain ⟨expires, related⟩ := alike.later.pairs other within
      refine ⟨expires, ?_⟩
      show AttemptTable.held (pruned.filter _) _ = _ ∨ AttemptTable.held (pruned.filter _) _ = _ ∧ _
      rw [alike.prunedKeyed.held_filter]
      obtain same | ⟨none, row, held, expired⟩ := related
      · rw [same]
        cases held : AttemptTable.held full (other.code, (within.index : Int)) with
        | none => exact .inl rfl
        | some row =>
            rw [Option.filter_some]
            split
            next => exact .inl rfl
            next gone =>
              rw [Bool.not_eq_true', Bool.not_eq_false] at gone
              refine .inr ⟨rfl, row, rfl, _, List.mem_append_right _ (List.mem_singleton_self _),
                rfl, now, rfl, ?_⟩
              exact SqlxAttemptRepository.expired_of_prunes gone
      · rw [none]
        exact .inr ⟨rfl, row, held, expired⟩

end Tables

/-! ## Runs alike -/

/-- The admissions have come as far in both runs, and their tables are alike. -/
structure GuardWorld.Alike (guard : AbuseGuard) (past : List (GuardInput × GuardAnswer))
    (pruned full : GuardWorld) : Prop where
  running : pruned.running = full.running
  asks : ∀ session now script, full.running session = some (now, script) →
    script.Asks (guard.Observes now)
  rows : RowsAlike guard.contract past pruned.rows full.rows

section Runs

variable {guard : AbuseGuard} {past : List (GuardInput × GuardAnswer)}
  {pruned full : GuardWorld} {entry : GuardInput × GuardAnswer}

theorem GuardWorld.Alike.later (alike : GuardWorld.Alike guard past pruned full) :
    GuardWorld.Alike guard (past ++ [entry]) pruned full :=
  ⟨alike.running, alike.asks, alike.rows.later⟩

/-- An admission that comes further in both runs leaves them alike. -/
theorem GuardWorld.Alike.become {session : Nat}
    {state : Option (Instant × AbuseGuard.Guarding Admitted)} {prunedRows fullRows : List AttemptRow}
    (alike : GuardWorld.Alike guard past pruned full)
    (asks : ∀ now script, state = some (now, script) → script.Asks (guard.Observes now))
    (rows : RowsAlike guard.contract past prunedRows fullRows) :
    GuardWorld.Alike guard (past ++ [entry]) (GuardWorld.become ⟨prunedRows, pruned.running⟩
      session state) (GuardWorld.become ⟨fullRows, full.running⟩ session state) where
  running := by
    show Function.update pruned.running _ _ = Function.update full.running _ _
    rw [alike.running]
  asks := by
    intro other now script running
    change Function.update full.running session state other = some (now, script) at running
    by_cases same : other = session
    · rw [same, Function.update_self] at running
      exact asks now script running
    · rw [Function.update_of_ne same] at running
      exact alike.asks other now script running
  rows := rows.later

/-- **A step of an admission is answered alike.** -/
theorem GuardWorld.Alike.proceed {session : Nat} {faults : Nat → Option DatabaseErrorKind}
    {lost : Option DatabaseErrorKind} {taken : Bool}
    (alike : GuardWorld.Alike guard past pruned full)
    (ordered : ∀ entry ∈ past, PrunedBefore entry (.proceed session faults lost taken,
      (guard.step pruned (.proceed session faults lost taken)).2)) :
    (guard.step pruned (.proceed session faults lost taken)).2 =
        (guard.step full (.proceed session faults lost taken)).2 ∧
      GuardWorld.Alike guard (past ++ [(.proceed session faults lost taken,
          (guard.step pruned (.proceed session faults lost taken)).2)])
        (guard.step pruned (.proceed session faults lost taken)).1
        (guard.step full (.proceed session faults lost taken)).1 := by
  revert ordered
  generalize told : (guard.step pruned (.proceed session faults lost taken)).2 = answer
  intro ordered
  cases running : full.running session with
  | none =>
      have also : pruned.running session = none := by rw [alike.running, running]
      simp only [AbuseGuard.step, also] at told
      simp only [AbuseGuard.step, running, also]
      exact ⟨told.symm, alike.later⟩
  | some at' =>
      obtain ⟨now, script⟩ := at'
      have also : pruned.running session = some (now, script) := by rw [alike.running, running]
      have asks := alike.asks session now script running
      cases script with
      | done admitted =>
          simp only [AbuseGuard.step, also] at told
          simp only [AbuseGuard.step, running, also]
          exact ⟨told.symm, alike.become (by rintro _ _ ⟨⟩) alike.rows⟩
      | fail error =>
          simp only [AbuseGuard.step, also] at told
          simp only [AbuseGuard.step, running, also]
          exact ⟨told.symm, alike.become (by rintro _ _ ⟨⟩) alike.rows⟩
      | query call next =>
          cases call with
          | record event =>
              simp only [AbuseGuard.step, also] at told
              simp only [AbuseGuard.step, running, also]
              refine ⟨told.symm, alike.become ?_ alike.rows⟩
              rintro _ _ ⟨⟩
              exact asks.2 taken
          | observe observation =>
              obtain ⟨dimension, bucket, rfl⟩ := asks.1
              simp only [AbuseGuard.step, also] at told
              simp only [AbuseGuard.step, running, also]
              have behind : ∀ row, ExpiredBy past row → row.expiresAt ≤ now := by
                rintro row ⟨entry, member, prunes, reading, reads, expired⟩
                refine le_trans expired (ordered entry member prunes reading reads now ?_)
                rw [← told]
                rfl
              obtain ⟨same, rows⟩ := alike.rows.observe dimension bucket behind faults
              rw [same] at told ⊢
              refine ⟨told.symm, alike.become ?_ rows⟩
              rintro _ _ ⟨⟩
              exact asks.2 _

theorem GuardWorld.Alike.admission {session : Nat} {flow : AttemptFlow} {keys : FlowKeys}
    {correlation : CorrelationId} {now : Instant} {answer : GuardAnswer}
    (alike : GuardWorld.Alike guard past pruned full) :
    (guard.step pruned (.admission session flow keys correlation now)).2 =
        (guard.step full (.admission session flow keys correlation now)).2 ∧
      GuardWorld.Alike guard (past ++ [(.admission session flow keys correlation now, answer)])
        (guard.step pruned (.admission session flow keys correlation now)).1
        (guard.step full (.admission session flow keys correlation now)).1 := by
  cases running : full.running session with
  | some at' =>
      have also : pruned.running session = some at' := by rw [alike.running, running]
      simp only [AbuseGuard.step, running, also]
      exact ⟨trivial, alike.later⟩
  | none =>
      have also : pruned.running session = none := by rw [alike.running, running]
      simp only [AbuseGuard.step, running, also]
      refine ⟨trivial, alike.become ?_ alike.rows⟩
      rintro _ _ ⟨⟩
      exact guard.admission_asks flow keys correlation now

theorem GuardWorld.Alike.empty : GuardWorld.Alike guard [] .empty .empty where
  running := rfl
  asks := by rintro _ _ _ ⟨⟩
  rows := ⟨List.nodup_nil, List.nodup_nil, fun _ _ => ⟨by rintro _ ⟨⟩, .inl rfl⟩⟩

/-- Runs with and without the prunings stay alike. -/
theorem AbuseGuard.erasing (guard : AbuseGuard) :
    guard.machine.Erasing GuardInput.prunes PrunedBefore (GuardWorld.Alike guard) where
  kept := by
    intro past pruned full input alike stays ordered
    cases input with
    | admission session flow keys correlation now => exact alike.admission
    | proceed session faults lost taken => exact alike.proceed ordered
    | prune => cases stays
  gone := by
    intro past pruned full input alike goes
    cases input with
    | prune dimension lower count now faults =>
        exact ⟨alike.running, alike.asks, alike.rows.prune⟩
    | admission | proceed => cases goes

end Runs

/-- **Prunings are not seen.** Whatever is pruned between the store calls of any
admissions, with clock readings that are in order, each other step is answered as
in the run without the prunings. -/
theorem prunings_unseen (guard : AbuseGuard) (inputs : List GuardInput)
    (ordered : (guard.machine.log .empty inputs).Pairwise PrunedBefore) :
    (guard.machine.log .empty inputs).filter (fun entry => !entry.1.prunes) =
      guard.machine.log .empty (inputs.filter fun input => !input.prunes) :=
  Machine.log_erased guard.erasing GuardWorld.Alike.empty ordered

/-- A guard of one attempt a second, with the keyed hash of one client's message. -/
def onePerSecond : AbuseGuard where
  contract := ⟨fun _ => ⟨1, 1, Nat.one_pos, by decide⟩⟩
  keyring := {
    key := ⟨(List.range 32).map fun byte => Fin.ofNat 256 (byte + 1), rfl⟩
    buckets := ⟨256, ⟨8, rfl⟩, by decide⟩
    hmac := fun _ _ => ⟨[129, 107, 63, 241, 108, 184, 199, 101, 237, 167, 214, 138, 33, 157, 135,
      63, 134, 216, 23, 172, 123, 232, 1, 8, 182, 79, 63, 229, 163, 186, 131, 112], rfl⟩
    rules := ⟨id, id⟩ }

/-- An attempt, its row pruned once it has expired, and another attempt. -/
def prunedBetween : List GuardInput :=
  let client := ClientIdentity.directPeer (.v4 ⟨[127, 0, 0, 1], rfl⟩)
  let attempt := fun now => [
    GuardInput.admission 0 .verificationComplete ⟨none, none, client⟩ ⟨List.replicate 8 0, rfl⟩ now,
    .proceed 0 Client.quiet none true, .proceed 0 Client.quiet none true,
    .proceed 0 Client.quiet none true]
  attempt 0 ++ [.prune .verificationCompleteNetwork 0 256 2000000 Client.quiet] ++ attempt 2000000

theorem prunings_unseen_between :
    (onePerSecond.machine.log .empty prunedBetween).filter (fun entry => !entry.1.prunes) =
      onePerSecond.machine.log .empty (prunedBetween.filter fun input => !input.prunes) :=
  prunings_unseen onePerSecond prunedBetween (by decide)

end Renvor
