import Renvor.Auth.AttemptStatements
import Renvor.Foundation.TransitionSystem

/-! # Attempts counted window by window

While clock readings do not go back, what the store answers for a dimension and
a bucket is how often they were observed in the window of the reading and in the
one before, whatever is pruned and wherever calls fail
(`Renvor.attempts_counted`).
-/

namespace Renvor

open Foundation

/-- A call on the attempt store. What an observation asks is the contract's. -/
inductive AttemptCall
  | observe (dimension : AttemptDimension) (bucket : AttemptBucket) (now : Instant)
  | prune (dimension : AttemptDimension) (lower count : Nat) (now : Instant)

inductive AttemptAnswer
  | observed (outcome : AttemptOutcome)
  | pruned (rows : Nat)

/-- A call, what the store did, and whether its answer was lost on the way: a
commit that is done may be reported as failed. -/
structure AttemptEvent where
  call : AttemptCall
  did : Except DatabaseErrorKind AttemptAnswer
  lost : Option DatabaseErrorKind

/-- The clock reading of a call. -/
def AttemptCall.now : AttemptCall → Instant
  | observe _ _ now | prune _ _ _ now => now

/-- What the caller is told. -/
def AttemptEvent.answer (event : AttemptEvent) : Except DatabaseErrorKind AttemptAnswer :=
  match event.lost with
  | some kind => .error kind
  | none => event.did

/-- Runs a call, some of whose statements may fail. -/
def AttemptCall.run (contract : AbuseContract) (faults : Nat → Option DatabaseErrorKind)
    (rows : List AttemptRow) : AttemptCall →
      Except DatabaseErrorKind AttemptAnswer × List AttemptRow
  | observe dimension bucket now =>
      (SqlxAttemptRepository.perform faults rows (SqlxAttemptRepository.observe
        ((contract.get dimension).observation dimension bucket now))).map
          (Except.map .observed) id
  | prune dimension lower count now =>
      (SqlxAttemptRepository.perform faults rows
        (SqlxAttemptRepository.prune dimension lower count now)).map (Except.map .pruned) id

/-- Any sequence of calls on an empty table, whichever of their statements fail. -/
def attemptSystem (contract : AbuseContract) : TransitionSystem (List AttemptRow) AttemptEvent where
  Initial rows := rows = []
  Step before event after := ∃ faults, event.call.run contract faults before = (event.did, after)

/-- The event counted an observation of the pair in the window that starts here. -/
def AttemptEvent.made (contract : AbuseContract) (dimension : AttemptDimension)
    (bucket : AttemptBucket) (windowStart : Instant) (event : AttemptEvent) : Bool :=
  match event.call, event.did with
  | .observe counted within now, .ok (.observed (.counted _)) =>
      counted = dimension && within = bucket &&
        (contract.get dimension).windowStart now = windowStart
  | _, _ => false

/-- How many observations of the pair were made in a window. -/
def madeIn (contract : AbuseContract) (dimension : AttemptDimension) (bucket : AttemptBucket)
    (windowStart : Instant) (events : List AttemptEvent) : Nat :=
  events.countP (AttemptEvent.made contract dimension bucket windowStart)

/-- The event counted an observation of the pair from one instant until another. -/
def AttemptEvent.observed (dimension : AttemptDimension) (bucket : AttemptBucket)
    (from' until' : Instant) (event : AttemptEvent) : Bool :=
  match event.call, event.did with
  | .observe counted within now, .ok (.observed (.counted _)) =>
      counted = dimension && within = bucket && from' ≤ now && now < until'
  | _, _ => false

/-- Clock readings do not go back. -/
def Forward (events : List AttemptEvent) : Prop :=
  (events.map fun event => event.call.now).Pairwise (· ≤ ·)

/-! ## Counters -/

/-- A row as a counter of windows. -/
def AttemptRow.counter (row : AttemptRow) : Windows.Counter where
  start := row.windowStart
  current := row.currentCount.toNat
  previous := row.previousCount.toNat

theorem AttemptState.ceiling_pos : 0 < AttemptState.ceiling := by decide

section Counters

variable {counts : Int → Nat} {window : Duration} {observation : AttemptObservation}
  {row : AttemptRow}

/-- An observation counts as a counter does. -/
theorem AttemptObservation.state_eq
    (rolls : observation.previousWindowStart = observation.windowStart - window) :
    observation.state row =
      let counter := row.counter.next AttemptState.ceiling window observation.windowStart
      ⟨counter.current, counter.previous, counter.start⟩ := by
  unfold state next AttemptRow.counter Windows.Counter.next
  rw [rolls]
  dsimp only
  split
  · rfl
  · split <;> rfl

/-- The row an observation leaves has the next counts. -/
theorem AttemptObservation.counted_tally
    (rolls : observation.previousWindowStart = observation.windowStart - window)
    (tally : row.counter.Tally counts AttemptState.ceiling window) (positive : 0 < window)
    (behind : row.windowStart = observation.windowStart ∨
      row.windowStart ≤ observation.windowStart - window) :
    (observation.counted row).counter.Tally (fun start =>
      if start = observation.windowStart then counts start + 1 else counts start)
      AttemptState.ceiling window := by
  have next := tally.next AttemptState.ceiling_pos positive behind
  have same : (observation.counted row).counter =
      row.counter.next AttemptState.ceiling window observation.windowStart := by
    have reads := tally.next_eq AttemptState.ceiling_pos positive behind
    unfold counted written
    rw [state_eq rolls, reads]
    simp only [AttemptRow.counter, SqlxAttemptRepository.countNumber, Int.toNat_natCast, min_assoc,
      min_self]
  rw [same]
  exact next

end Counters

/-! ## The invariant -/

/-- The row of a pair has its counts, and a pair without a row was not observed
for two windows. -/
structure PairTallied (contract : AbuseContract) (dimension : AttemptDimension)
    (bucket : AttemptBucket) (events : List AttemptEvent) (rows : List AttemptRow) : Prop where
  row : ∀ row, AttemptTable.held rows (dimension.code, bucket.index) = some row →
    row.counter.Tally (fun start => madeIn contract dimension bucket start events)
        AttemptState.ceiling (contract.get dimension).window ∧
      row.expiresAt = row.windowStart + (contract.get dimension).window +
        (contract.get dimension).window ∧
      ∃ event ∈ events, row.windowStart = (contract.get dimension).windowStart event.call.now
  absent : AttemptTable.held rows (dimension.code, bucket.index) = none →
    ∀ start, madeIn contract dimension bucket start events ≠ 0 → ∃ event ∈ events,
      start + (contract.get dimension).window + (contract.get dimension).window ≤ event.call.now

/-- One row for each pair, with its counts. -/
structure Tallied (contract : AbuseContract) (events : List AttemptEvent)
    (rows : List AttemptRow) : Prop where
  keyed : AttemptTable.Keyed rows
  pairs : ∀ dimension bucket, PairTallied contract dimension bucket events rows

section Invariant

variable {contract : AbuseContract} {dimension : AttemptDimension} {bucket : AttemptBucket}
  {events : List AttemptEvent} {rows after : List AttemptRow} {event : AttemptEvent}

theorem madeIn_append (start : Instant) :
    madeIn contract dimension bucket start (events ++ [event]) =
      madeIn contract dimension bucket start events +
        if event.made contract dimension bucket start = true then 1 else 0 := by
  unfold madeIn
  rw [List.countP_append, List.countP_singleton]

/-- What an observation did: nothing, or it refused a clock that is behind the
row, or it counted. -/
theorem run_observe {now : Instant} {faults : Nat → Option DatabaseErrorKind}
    (keyed : AttemptTable.Keyed rows) {did : Except DatabaseErrorKind AttemptAnswer}
    (runs : (AttemptCall.observe dimension bucket now).run contract faults rows = (did, after)) :
    let observation := (contract.get dimension).observation dimension bucket now
    let stored := AttemptTable.stored observation rows
    ((∃ kind, did = .error kind) ∧ after = rows) ∨
      (observation.windowStart < stored.windowStart ∧ did = .ok (.observed .clockRegressed) ∧
        after = rows) ∨
      (¬ observation.windowStart < stored.windowStart ∧
        did = .ok (.observed (.counted (observation.state stored))) ∧
        after = AttemptTable.settled observation rows) := by
  intro observation stored
  rw [AttemptCall.run, SqlxAttemptRepository.observe_counts keyed] at runs
  generalize ends : SqlxAttemptRepository.resultOr _ _ _ = reached at runs
  obtain ⟨result, left⟩ := reached
  obtain ⟨rfl, rfl⟩ := Prod.mk.inj runs
  obtain ⟨kind, _, rfl, same⟩ | ⟨_, result⟩ := SqlxAttemptRepository.resultOr_eq ends
  · exact .inl ⟨⟨kind, rfl⟩, same⟩
  · unfold SqlxAttemptRepository.outcome at result
    split at result
    next behind =>
      obtain ⟨rfl, rfl⟩ := Prod.mk.inj result
      exact .inr (.inl ⟨behind, rfl, AttemptTable.ensured_behind behind⟩)
    next behind =>
      obtain ⟨rfl, rfl⟩ := Prod.mk.inj result
      exact .inr (.inr ⟨behind, rfl, rfl⟩)

/-- An observation that nothing disturbs is answered. -/
theorem observe_quiet {now : Instant} (keyed : AttemptTable.Keyed rows) : ∃ outcome after,
    (AttemptCall.observe dimension bucket now).run contract Client.quiet rows =
      (.ok (.observed outcome), after) := by
  rw [AttemptCall.run, SqlxAttemptRepository.observe_counts keyed, Client.firstFault_quiet]
  exact ⟨_, _, rfl⟩

/-- What pruning did. -/
theorem run_prune {lower count : Nat} {now : Instant} {faults : Nat → Option DatabaseErrorKind}
    {did : Except DatabaseErrorKind AttemptAnswer}
    (runs : (AttemptCall.prune dimension lower count now).run contract faults rows =
      (did, after)) :
    (∀ outcome, did ≠ .ok (.observed outcome)) ∧ (after = rows ∨
      after = rows.filter fun row => !SqlxAttemptRepository.prunes dimension lower count now row) := by
  rw [AttemptCall.run, SqlxAttemptRepository.prune_deletes] at runs
  generalize ends : SqlxAttemptRepository.resultOr _ _ _ = reached at runs
  obtain ⟨result, left⟩ := reached
  obtain ⟨rfl, rfl⟩ := Prod.mk.inj runs
  obtain ⟨kind, _, rfl, same⟩ | ⟨_, result⟩ := SqlxAttemptRepository.resultOr_eq ends
  · exact ⟨by rintro _ ⟨⟩, .inl same⟩
  · obtain ⟨rfl, rfl⟩ := Prod.mk.inj result
    exact ⟨by rintro _ ⟨⟩, .inr rfl⟩

/-- An event that is not the pair's, and that leaves the pair's row, leaves its
counts. -/
theorem PairTallied.other (tallied : PairTallied contract dimension bucket events rows)
    (unmade : ∀ start, event.made contract dimension bucket start = false)
    (same : AttemptTable.held after (dimension.code, bucket.index) =
      AttemptTable.held rows (dimension.code, bucket.index)) :
    PairTallied contract dimension bucket (events ++ [event]) after := by
  have counts : ∀ start, madeIn contract dimension bucket start (events ++ [event]) =
      madeIn contract dimension bucket start events := by
    intro start
    rw [madeIn_append, unmade start]
    rfl
  constructor
  · intro row held
    obtain ⟨tally, expires, earlier, member, opened⟩ := tallied.row row (same ▸ held)
    refine ⟨?_, expires, earlier, List.mem_append_left _ member, opened⟩
    simpa only [counts] using tally
  · intro none start counted
    rw [counts] at counted
    obtain ⟨reading, member, past⟩ := tallied.absent (same ▸ none) start counted
    exact ⟨reading, List.mem_append_left _ member, past⟩

/-- The row an observation finds has the pair's counts and starts no later. -/
theorem PairTallied.stored {now : Instant}
    (tallied : PairTallied contract dimension bucket events rows)
    (forward : ∀ earlier ∈ events, earlier.call.now ≤ now) :
    let observation := (contract.get dimension).observation dimension bucket now
    let row := AttemptTable.stored observation rows
    row.counter.Tally (fun start => madeIn contract dimension bucket start events)
        AttemptState.ceiling (contract.get dimension).window ∧
      (row.windowStart = observation.windowStart ∨
        row.windowStart ≤ observation.windowStart - (contract.get dimension).window) := by
  intro observation row
  have positive := (contract.get dimension).window_pos
  have opened : observation.windowStart = Windows.start (contract.get dimension).window now :=
    AttemptLimit.windowStart_eq ..
  cases held : AttemptTable.held rows (dimension.code, bucket.index) with
  | some found =>
      have same : row = found := by
        have key : AttemptTable.held rows observation.key = some found := held
        show (AttemptTable.held rows observation.key).getD _ = found
        rw [key]
        rfl
      rw [same]
      obtain ⟨tally, _, earlier, member, start⟩ := tallied.row found held
      refine ⟨tally, ?_⟩
      rw [start, opened, AttemptLimit.windowStart_eq]
      exact Windows.start_cases positive (forward earlier member)
  | none =>
      have same : row = observation.row := by
        have key : AttemptTable.held rows observation.key = none := held
        show (AttemptTable.held rows observation.key).getD _ = _
        rw [key]
        rfl
      rw [same]
      refine ⟨Windows.Counter.Tally.zero ?_ positive, .inl rfl⟩
      intro start counted
      obtain ⟨reading, member, past⟩ := tallied.absent held start counted
      have le : reading.call.now ≤ now := forward reading member
      have less : now < observation.windowStart + (contract.get dimension).window := by
        rw [opened]
        exact Windows.lt_start positive now
      have bound : start + (contract.get dimension).window + (contract.get dimension).window <
          observation.windowStart + (contract.get dimension).window :=
        lt_of_le_of_lt (le_trans past le) less
      exact Int.lt_sub_right_of_add_lt (Int.lt_of_add_lt_add_right bound)

/-- With a clock reading that does not go back an observation is not refused. -/
theorem PairTallied.not_behind {now : Instant}
    (tallied : PairTallied contract dimension bucket events rows)
    (forward : ∀ earlier ∈ events, earlier.call.now ≤ now) :
    let observation := (contract.get dimension).observation dimension bucket now
    ¬ observation.windowStart < (AttemptTable.stored observation rows).windowStart := by
  obtain ⟨-, same | before⟩ := tallied.stored forward
  · exact not_lt.mpr (le_of_eq same)
  · exact not_lt.mpr (le_trans before
      (Int.sub_le_self _ (Int.le_of_lt (contract.get dimension).window_pos)))

/-- **An observation keeps the counts.** -/
theorem Tallied.observe {counted : AttemptDimension} {within : AttemptBucket} {now : Instant}
    {did : Except DatabaseErrorKind AttemptAnswer} {lost : Option DatabaseErrorKind}
    {faults : Nat → Option DatabaseErrorKind} (tallied : Tallied contract events rows)
    (forward : ∀ earlier ∈ events, earlier.call.now ≤ now)
    (runs : (AttemptCall.observe counted within now).run contract faults rows = (did, after)) :
    Tallied contract (events ++ [⟨.observe counted within now, did, lost⟩]) after := by
  have outcome := run_observe tallied.keyed runs
  obtain ⟨tally, behind⟩ := (tallied.pairs counted within).stored forward
  set observation := (contract.get counted).observation counted within now with asked
  have positive := (contract.get counted).window_pos
  have notBehind := (tallied.pairs counted within).not_behind forward
  obtain ⟨⟨kind, rfl⟩, rfl⟩ | ⟨regressed, _⟩ | ⟨_, rfl, rfl⟩ := outcome
  · exact ⟨tallied.keyed, fun dimension bucket =>
      (tallied.pairs dimension bucket).other (fun _ => rfl) rfl⟩
  · exact (notBehind regressed).elim
  refine ⟨tallied.keyed.settled, fun dimension bucket => ?_⟩
  by_cases same : counted = dimension ∧ within = bucket
  · obtain ⟨rfl, rfl⟩ := same
    have held := AttemptTable.held_settled observation tallied.keyed
    have counts : (fun start => madeIn contract counted within start (events ++
        [⟨.observe counted within now, .ok (.observed (.counted (observation.state
          (AttemptTable.stored observation rows)))), lost⟩])) =
        fun start => if start = observation.windowStart then madeIn contract counted within start
          events + 1 else madeIn contract counted within start events := by
      funext start
      rw [madeIn_append]
      simp only [AttemptEvent.made, decide_true, Bool.true_and, decide_eq_true_eq]
      show (_ + if observation.windowStart = start then 1 else 0) = _
      by_cases opened : start = observation.windowStart
      · rw [if_pos opened, if_pos opened.symm]
      · rw [if_neg opened, if_neg fun same => opened same.symm]
        rfl
    constructor
    · intro row found
      obtain rfl := Option.some.inj (held.symm.trans found)
      refine ⟨?_, rfl, _, List.mem_append_right _ (List.mem_singleton_self _), rfl⟩
      rw [counts]
      exact AttemptObservation.counted_tally rfl tally positive behind
    · intro none
      cases held.symm.trans none
  · refine (tallied.pairs dimension bucket).other (fun start => ?_) ?_
    · simp only [AttemptEvent.made, Bool.and_eq_false_iff, decide_eq_false_iff_not]
      exact .inl (not_and_or.mp same)
    · refine AttemptTable.held_settled_other tallied.keyed fun equal => same ?_
      obtain ⟨codes, numbers⟩ := Prod.mk.inj equal
      refine ⟨(AttemptDimension.code_inj codes).symm, ?_⟩
      have numbers := Int.ofNat.inj numbers
      cases bucket
      cases within
      cases numbers
      rfl

/-- **Pruning keeps the counts.** -/
theorem Tallied.prune {pruned : AttemptDimension} {lower count : Nat} {now : Instant}
    {did : Except DatabaseErrorKind AttemptAnswer} {lost : Option DatabaseErrorKind}
    {faults : Nat → Option DatabaseErrorKind} (tallied : Tallied contract events rows)
    (runs : (AttemptCall.prune pruned lower count now).run contract faults rows = (did, after)) :
    Tallied contract (events ++ [⟨.prune pruned lower count now, did, lost⟩]) after := by
  obtain ⟨_, same⟩ := run_prune runs
  obtain rfl | rfl := same
  · exact ⟨tallied.keyed, fun dimension bucket =>
      (tallied.pairs dimension bucket).other (fun _ => rfl) rfl⟩
  refine ⟨tallied.keyed.filter, fun dimension bucket => ?_⟩
  have unmade : ∀ start, AttemptEvent.made contract dimension bucket start
      ⟨.prune pruned lower count now, did, lost⟩ = false := fun _ => rfl
  have filtered := tallied.keyed.held_filter
    (fun row => !SqlxAttemptRepository.prunes pruned lower count now row)
    (dimension.code, (bucket.index : Int))
  cases held : AttemptTable.held rows (dimension.code, bucket.index) with
  | none =>
      refine (tallied.pairs dimension bucket).other unmade ?_
      rw [filtered, held]
      rfl
  | some row =>
      rw [held, Option.filter_some] at filtered
      split at filtered
      next =>
        refine (tallied.pairs dimension bucket).other unmade ?_
        rw [filtered, held]
      next gone =>
        rw [Bool.not_eq_true', Bool.not_eq_false] at gone
        constructor
        · intro other found
          cases filtered.symm.trans found
        · intro _ start counted
          refine ⟨_, List.mem_append_right _ (List.mem_singleton_self _), ?_⟩
          rw [madeIn_append, unmade start] at counted
          obtain ⟨tally, expires, _⟩ := (tallied.pairs dimension bucket).row row held
          have le : start ≤ row.windowStart := tally.latest start counted
          show start + (contract.get dimension).window + (contract.get dimension).window ≤ now
          refine le_trans ?_ (SqlxAttemptRepository.expired_of_prunes gone)
          rw [expires]
          exact Int.add_le_add_right (Int.add_le_add_right le _) _

theorem Tallied.step (tallied : Tallied contract events rows)
    (forward : ∀ earlier ∈ events, earlier.call.now ≤ event.call.now)
    (step : (attemptSystem contract).Step rows event after) :
    Tallied contract (events ++ [event]) after := by
  obtain ⟨faults, runs⟩ := step
  obtain ⟨call, did, lost⟩ := event
  cases call with
  | observe dimension bucket now => exact tallied.observe forward runs
  | prune dimension lower count now => exact tallied.prune runs

theorem Tallied.empty : Tallied contract [] [] where
  keyed := List.nodup_nil
  pairs dimension bucket := ⟨by rintro _ ⟨⟩, fun _ start counted => (counted rfl).elim⟩

theorem Forward.last (forward : Forward (events ++ [event])) :
    Forward events ∧ ∀ earlier ∈ events, earlier.call.now ≤ event.call.now := by
  unfold Forward at forward ⊢
  rw [List.map_append, List.pairwise_append] at forward
  refine ⟨forward.1, fun earlier member => ?_⟩
  exact forward.2.2 _ (List.mem_map_of_mem member) _ (List.mem_singleton_self _)

/-- **Runs keep the counts** while clock readings do not go back. -/
theorem tallied_run {first : List AttemptRow} (initial : (attemptSystem contract).Initial first)
    (run : (attemptSystem contract).Run first events rows) (forward : Forward events) :
    Tallied contract events rows := by
  induction run with
  | refl =>
      cases initial
      exact .empty
  | snoc previous step ih =>
      obtain ⟨before, last⟩ := forward.last
      exact (ih before).step last step

/-- Whatever the clock readings, there is one row for each pair. -/
theorem keyed_reachable (reachable : (attemptSystem contract).Reachable rows) :
    AttemptTable.Keyed rows := by
  apply reachable.rec_on
  · rintro _ rfl
    exact List.nodup_nil
  · rintro before ⟨call, did, lost⟩ after _ keyed ⟨faults, runs⟩
    cases call with
    | observe dimension bucket now =>
        obtain ⟨_, rfl⟩ | ⟨_, _, rfl⟩ | ⟨_, _, rfl⟩ := run_observe keyed runs
        · exact keyed
        · exact keyed
        · exact keyed.settled
    | prune dimension lower count now =>
        obtain ⟨_, rfl | rfl⟩ := run_prune runs
        · exact keyed
        · exact keyed.filter

/-- What is counted in a window is what was observed while it lasted. -/
theorem madeIn_eq (now : Instant) :
    madeIn contract dimension bucket ((contract.get dimension).windowStart now) events =
      events.countP (AttemptEvent.observed dimension bucket
        ((contract.get dimension).windowStart now)
        ((contract.get dimension).windowStart now + (contract.get dimension).window)) := by
  have positive := (contract.get dimension).window_pos
  unfold madeIn
  congr 1
  funext event
  obtain ⟨call, did, lost⟩ := event
  cases call with
  | prune => rfl
  | observe counted within instant =>
      cases did with
      | error kind => rfl
      | ok answer =>
          cases answer with
          | pruned rows => rfl
          | observed outcome =>
              cases outcome with
              | clockRegressed => rfl
              | counted state =>
                  have same := Windows.start_eq_iff positive instant now
                  rw [← AttemptLimit.windowStart_eq, ← AttemptLimit.windowStart_eq] at same
                  simp only [AttemptEvent.made, AttemptEvent.observed, decide_eq_decide.mpr same,
                    Bool.decide_and, Bool.and_assoc]

end Invariant

section Answers

variable {contract : AbuseContract} {dimension : AttemptDimension} {bucket : AttemptBucket}
  {events : List AttemptEvent} {rows after : List AttemptRow} {event : AttemptEvent}

/-- An answer is what the store did. -/
theorem AttemptEvent.answer_ok {told : AttemptAnswer} (answered : event.answer = .ok told) :
    event.did = .ok told := by
  unfold AttemptEvent.answer at answered
  split at answered
  · cases answered
  · exact answered

/-- An observation that is answered has counted the ones before it, and itself. -/
theorem Tallied.answered {now : Instant} {outcome : AttemptOutcome}
    {faults : Nat → Option DatabaseErrorKind} (tallied : Tallied contract events rows)
    (forward : ∀ earlier ∈ events, earlier.call.now ≤ now)
    (runs : (AttemptCall.observe dimension bucket now).run contract faults rows =
      (.ok (.observed outcome), after))
    (call : event.call = .observe dimension bucket now)
    (did : event.did = .ok (.observed outcome)) :
    outcome = .counted {
      current := min (madeIn contract dimension bucket
        ((contract.get dimension).windowStart now) (events ++ [event])) AttemptState.ceiling
      previous := min (madeIn contract dimension bucket
        ((contract.get dimension).windowStart now - (contract.get dimension).window)
        (events ++ [event])) AttemptState.ceiling
      windowStart := (contract.get dimension).windowStart now } := by
  have positive := (contract.get dimension).window_pos
  obtain ⟨tally, behind⟩ := (tallied.pairs dimension bucket).stored forward
  obtain ⟨⟨_, failed⟩, _⟩ | ⟨regressed, _⟩ | ⟨_, counts, _⟩ := run_observe tallied.keyed runs
  · cases failed
  · exact ((tallied.pairs dimension bucket).not_behind forward regressed).elim
  obtain rfl : outcome = _ := AttemptAnswer.observed.inj (Except.ok.inj counts)
  have reads := tally.next_eq AttemptState.ceiling_pos positive behind
  have made : ∀ start, event.made contract dimension bucket start =
      decide ((contract.get dimension).windowStart now = start) := by
    intro start
    unfold AttemptEvent.made
    rw [call, did]
    simp only [decide_true, Bool.true_and]
  have itself : event.made contract dimension bucket
      ((contract.get dimension).windowStart now) = true := by
    rw [made]
    exact decide_eq_true rfl
  have earlier : ¬ event.made contract dimension bucket
      ((contract.get dimension).windowStart now - (contract.get dimension).window) = true := by
    rw [made]
    intro same
    exact ne_of_gt (Int.sub_lt_self _ positive) (of_decide_eq_true same)
  rw [AttemptObservation.state_eq rfl, reads, madeIn_append, madeIn_append, if_pos itself,
    if_neg earlier]
  rfl

/-- The window before an instant's is the one that contains the instant a window
earlier. -/
theorem AttemptLimit.windowStart_sub (limit : AttemptLimit) (now : Instant) :
    limit.windowStart (now - limit.window) = limit.windowStart now - limit.window := by
  rw [windowStart_eq, windowStart_eq]
  exact Windows.start_sub limit.window_pos

/-- What is counted in the window before an instant's is what was observed while
that window lasted. -/
theorem madeIn_previous (now : Instant) :
    let limit := contract.get dimension
    madeIn contract dimension bucket (limit.windowStart now - limit.window) events =
      events.countP (AttemptEvent.observed dimension bucket
        (limit.windowStart now - limit.window) (limit.windowStart now)) := by
  intro limit
  rw [← AttemptLimit.windowStart_sub, madeIn_eq, AttemptLimit.windowStart_sub]
  congr 2
  exact Int.sub_add_cancel _ _

end Answers

/-- What holds of the attempt store in every run. -/
structure AttemptsCounted (contract : AbuseContract) : Prop where
  /-- While clock readings do not go back, an observation none of whose statements
  fails is counted, and so is never refused. -/
  answered : ∀ first events rows, (attemptSystem contract).Initial first →
    (attemptSystem contract).Run first events rows → ∀ dimension bucket now,
    Forward events → (∀ earlier ∈ events, earlier.call.now ≤ now) →
    ∃ state, ((AttemptCall.observe dimension bucket now).run contract Client.quiet rows).1 =
      .ok (.observed (.counted state))
  /-- While clock readings do not go back, what an observation is answered is how
  often the pair was observed in the window of its reading and in the one before. -/
  counted : ∀ first events rows event after, (attemptSystem contract).Initial first →
    (attemptSystem contract).Run first events rows →
    (attemptSystem contract).Step rows event after → Forward (events ++ [event]) →
    ∀ dimension bucket now outcome, event.call = .observe dimension bucket now →
    event.answer = .ok (.observed outcome) →
    let opened := (contract.get dimension).windowStart now
    opened ≤ now ∧ now < opened + (contract.get dimension).window ∧
      outcome = .counted {
        current := min ((events ++ [event]).countP (AttemptEvent.observed dimension bucket opened
          (opened + (contract.get dimension).window))) AttemptState.ceiling
        previous := min ((events ++ [event]).countP (AttemptEvent.observed dimension bucket
          (opened - (contract.get dimension).window) opened)) AttemptState.ceiling
        windowStart := opened }
  /-- An observation whose reading is behind the stored window is refused, and
  writes nothing. -/
  refused : ∀ rows event after, (attemptSystem contract).Reachable rows →
    (attemptSystem contract).Step rows event after → ∀ dimension bucket now,
    event.call = .observe dimension bucket now → ∀ row ∈ rows,
    row.key = (dimension.code, (bucket.index : Int)) →
    (contract.get dimension).windowStart now < row.windowStart →
    after = rows ∧ ∀ answer, event.answer = .ok answer → answer = .observed .clockRegressed
  /-- A dimension's bucket has at most one row. -/
  bounded : ∀ rows, (attemptSystem contract).Reachable rows → ∀ dimension : AttemptDimension,
    ∀ bucket : AttemptBucket,
    rows.countP (fun row => row.key = (dimension.code, (bucket.index : Int))) ≤ 1

/-- **The store counts attempts window by window.** All parts are about every run of its calls,
statements that fail among them; what an observation is answered is exact while the readings of
the clock do not go back. -/
theorem attempts_counted (contract : AbuseContract) : AttemptsCounted contract where
  answered := by
    intro first events rows initial run dimension bucket now forward last
    have tallied := tallied_run initial run forward
    obtain ⟨outcome, after, runs⟩ := observe_quiet tallied.keyed
    have counts := @Tallied.answered contract dimension bucket _ _ _
      ⟨.observe dimension bucket now, .ok (.observed outcome), none⟩ now outcome _ tallied last
      runs rfl rfl
    rw [runs, counts]
    exact ⟨_, rfl⟩
  counted := by
    rintro first events rows ⟨call, did, lost⟩ after initial run step forward dimension bucket now
      outcome rfl answered
    obtain ⟨before, last⟩ := forward.last
    obtain ⟨faults, runs⟩ := step
    have tallied := tallied_run initial run before
    obtain rfl : did = _ := AttemptEvent.answer_ok answered
    have positive := (contract.get dimension).window_pos
    refine ⟨?_, ?_, ?_⟩
    · rw [AttemptLimit.windowStart_eq]
      exact Windows.start_le positive now
    · rw [AttemptLimit.windowStart_eq]
      exact Windows.lt_start positive now
    · have call : (AttemptEvent.mk (.observe dimension bucket now) (.ok (.observed outcome))
          lost).call = .observe dimension bucket now := rfl
      have answer := tallied.answered last runs call rfl
      rw [madeIn_eq, madeIn_previous] at answer
      exact answer
  refused := by
    rintro rows ⟨call, did, lost⟩ after reachable ⟨faults, runs⟩ dimension bucket now rfl row member
      same behind
    have keyed := keyed_reachable reachable
    have regresses : (contract.get dimension).windowStart now < (AttemptTable.stored
        ((contract.get dimension).observation dimension bucket now) rows).windowStart := by
      have holds : AttemptTable.held rows
          ((contract.get dimension).observation dimension bucket now).key = some row :=
        keyed.held member same
      unfold AttemptTable.stored
      rw [holds]
      exact behind
    obtain ⟨⟨kind, failed⟩, same⟩ | ⟨_, regressed, same⟩ | ⟨notBehind, _⟩ := run_observe keyed runs
    · refine ⟨same, fun answer answered => ?_⟩
      cases failed.symm.trans (AttemptEvent.answer_ok answered)
    · refine ⟨same, fun answer answered => ?_⟩
      exact (Except.ok.inj (regressed.symm.trans (AttemptEvent.answer_ok answered))).symm
    · exact (notBehind regresses).elim
  bounded := by
    intro rows reachable dimension bucket
    have once := List.nodup_iff_count_le_one.mp (keyed_reachable reachable)
      (dimension.code, (bucket.index : Int))
    rw [List.count, List.countP_map] at once
    refine le_trans (List.countP_mono_left fun row _ same => ?_) once
    exact beq_iff_eq.mpr (of_decide_eq_true same)

end Renvor
