import Renvor.Auth.AttemptCounts

/-! # How many attempts a window lets through

The estimate charges the tail of the window before by whole seconds. A span as
long as the window that crosses a boundary lets through the limit before it and,
in the last second, all but one second's share of the limit after it
(`Renvor.bursts_bounded_iff`).
-/

namespace Renvor

open Foundation

/-- The event let an attempt of the pair through, from one instant until another. -/
def AttemptEvent.admitted (contract : AbuseContract) (dimension : AttemptDimension)
    (bucket : AttemptBucket) (from' until' : Instant) (event : AttemptEvent) : Bool :=
  match event.call, event.answer with
  | .observe counted within now, .ok (.observed outcome) =>
      counted = dimension && within = bucket && from' ≤ now && now < until' &&
        !AbuseGuard.refuses (contract.get dimension) now outcome
  | _, _ => false

namespace AttemptLimit

/-- The window in whole seconds. -/
def seconds (limit : AttemptLimit) : Nat := limit.windowSeconds.toNat

theorem seconds_pos (limit : AttemptLimit) : 0 < limit.seconds := by
  have least := limit.bounded.1
  unfold seconds
  omega

theorem window_eq (limit : AttemptLimit) : limit.window = (limit.seconds : Int) * 1000000 := by
  have least := limit.bounded.1
  have whole : (limit.seconds : Int) = limit.windowSeconds := Int.toNat_of_nonneg (by omega)
  rw [whole]
  rfl

/-- Whole seconds between two instants in microseconds. -/
def secondsBetween (start stop : Int) : Nat := ((stop - start) / 1000000).toNat

theorem secondsBetween_lt {start stop : Int} {seconds : Nat} (some : 0 < seconds)
    (before : stop < start + seconds * 1000000) : secondsBetween start stop < seconds := by
  unfold secondsBetween
  omega

/-- The seconds left of a window. -/
def remaining (limit : AttemptLimit) (windowStart now : Instant) : Nat :=
  limit.seconds - secondsBetween windowStart now

section Remaining

variable {limit : AttemptLimit} {windowStart now : Instant}

/-- Fewer seconds than the window's have passed while it lasts. -/
theorem passed_lt (before : now < windowStart + limit.window) :
    secondsBetween windowStart now < limit.seconds := by
  rw [window_eq] at before
  exact secondsBetween_lt limit.seconds_pos before

theorem remaining_pos (before : now < windowStart + limit.window) :
    0 < limit.remaining windowStart now :=
  Nat.sub_pos_of_lt (passed_lt before)

theorem clamped_eq {start stop : Int} {seconds : Int} (after : start ≤ stop)
    (within : (secondsBetween start stop : Int) ≤ seconds) :
    (min (max (Int.tdiv (stop - start) 1000000) 0) seconds).toNat = secondsBetween start stop := by
  rw [Int.tdiv_eq_ediv_of_nonneg (Int.sub_nonneg.mpr after)]
  unfold secondsBetween at within ⊢
  omega

/-- A caller is within the limit where the tail and the count are. -/
theorem exceededBy_false {state : AttemptState} (after : state.windowStart ≤ now)
    (before : now < state.windowStart + limit.window) :
    limit.exceededBy state now = false ↔
      state.previous * limit.remaining state.windowStart now / limit.seconds + state.current ≤
        limit.limit := by
  have passed := passed_lt before
  have least := limit.bounded.1
  have whole : (limit.seconds : Int) = limit.windowSeconds := Int.toNat_of_nonneg (by omega)
  unfold exceededBy Duration.numSeconds
  rw [max_eq_left least]
  dsimp only
  rw [decide_eq_false_iff_not, gt_iff_lt, not_lt]
  have clamped : (min (max (Int.tdiv (now - state.windowStart) 1000000) 0)
      limit.windowSeconds).toNat = secondsBetween state.windowStart now :=
    clamped_eq after (by omega)
  rw [clamped]
  rfl

end Remaining

end AttemptLimit

section Bound

variable {contract : AbuseContract} {dimension : AttemptDimension} {bucket : AttemptBucket}
  {from' until' : Instant} {events : List AttemptEvent} {rows after : List AttemptRow}
  {event : AttemptEvent}

/-- An attempt that is let through was counted, and found the pair within the limit. -/
theorem admitted_cases (admits : event.admitted contract dimension bucket from' until' = true) :
    ∃ now state, event.call = .observe dimension bucket now ∧
      event.answer = .ok (.observed (.counted state)) ∧ from' ≤ now ∧ now < until' ∧
        (contract.get dimension).exceededBy state now = false := by
  unfold AttemptEvent.admitted at admits
  split at admits
  next counted within now outcome call answer =>
    simp only [Bool.and_eq_true, decide_eq_true_eq, Bool.not_eq_true'] at admits
    obtain ⟨⟨⟨⟨rfl, rfl⟩, after⟩, before⟩, within⟩ := admits
    cases outcome with
    | clockRegressed => cases within
    | counted state => exact ⟨now, state, call, answer, after, before, within⟩
  next => cases admits

theorem admitted_of {now : Instant} {state : AttemptState}
    (call : event.call = .observe dimension bucket now)
    (answer : event.answer = .ok (.observed (.counted state))) (after : from' ≤ now)
    (before : now < until') (within : (contract.get dimension).exceededBy state now = false) :
    event.admitted contract dimension bucket from' until' = true := by
  unfold AttemptEvent.admitted
  rw [call, answer]
  simp only [decide_true, Bool.true_and, Bool.and_eq_true, decide_eq_true_eq, Bool.not_eq_true']
  exact ⟨⟨after, before⟩, within⟩

/-- What is let through while a window lasts is counted in it. -/
theorem admitted_le (within : ∀ now, from' ≤ now → now < until' →
    (contract.get dimension).windowStart now = (contract.get dimension).windowStart from') :
    events.countP (AttemptEvent.admitted contract dimension bucket from' until') ≤
      madeIn contract dimension bucket ((contract.get dimension).windowStart from') events := by
  refine List.countP_mono_left fun event _ admits => ?_
  obtain ⟨now, state, call, answer, after, before, _⟩ := admitted_cases admits
  unfold AttemptEvent.made
  rw [call, AttemptEvent.answer_ok answer]
  simp only [decide_true, Bool.true_and, decide_eq_true_eq]
  exact within now after before

/-- A span splits where another begins. -/
theorem admitted_split {middle : Instant} (after : from' ≤ middle) (before : middle ≤ until') :
    events.countP (AttemptEvent.admitted contract dimension bucket from' until') =
      events.countP (AttemptEvent.admitted contract dimension bucket from' middle) +
        events.countP (AttemptEvent.admitted contract dimension bucket middle until') := by
  induction events with
  | nil => rfl
  | cons event rest ih =>
      have here : (if event.admitted contract dimension bucket from' until' = true then 1 else 0) =
          (if event.admitted contract dimension bucket from' middle = true then 1 else 0) +
            if event.admitted contract dimension bucket middle until' = true then 1 else 0 := by
        unfold AttemptEvent.admitted
        split
        next counted within now outcome _ _ =>
          by_cases early : now < middle
          · have outside : ¬ middle ≤ now := not_le.mpr early
            have inside : now < until' := lt_of_lt_of_le early before
            simp [early, outside, inside]
          · have late : middle ≤ now := not_lt.mp early
            have inside : from' ≤ now := le_trans after late
            simp [early, late, inside]
        next => rfl
      rw [List.countP_cons, List.countP_cons, List.countP_cons, ih, here]
      omega

/-- What the span that begins at an instant has let through: before the boundary no more
than the limit, and after it what a second's share of that leaves. -/
structure SpanBounded (contract : AbuseContract) (dimension : AttemptDimension)
    (bucket : AttemptBucket) (from' : Instant) (events : List AttemptEvent) : Prop where
  first : events.countP (AttemptEvent.admitted contract dimension bucket from'
    ((contract.get dimension).windowStart from' + (contract.get dimension).window)) ≤
      (contract.get dimension).limit
  both : events.countP (AttemptEvent.admitted contract dimension bucket from'
      ((contract.get dimension).windowStart from' + (contract.get dimension).window)) /
        (contract.get dimension).seconds +
    events.countP (AttemptEvent.admitted contract dimension bucket
      ((contract.get dimension).windowStart from' + (contract.get dimension).window)
      (from' + (contract.get dimension).window)) ≤ (contract.get dimension).limit

theorem countP_append_admitted (until' : Instant) :
    (events ++ [event]).countP (AttemptEvent.admitted contract dimension bucket from' until') =
      events.countP (AttemptEvent.admitted contract dimension bucket from' until') +
        if event.admitted contract dimension bucket from' until' = true then 1 else 0 := by
  rw [List.countP_append, List.countP_singleton]

/-- The boundary a span crosses is within it. -/
theorem boundary_le (limit : AttemptLimit) (from' : Instant) :
    from' ≤ limit.windowStart from' + limit.window ∧
      limit.windowStart from' + limit.window ≤ from' + limit.window := by
  rw [AttemptLimit.windowStart_eq]
  refine ⟨le_of_lt (Windows.lt_start limit.window_pos from'), ?_⟩
  exact Int.add_le_add_right (Windows.start_le limit.window_pos from') _

/-- The instants of a span before the boundary are in the window it begins in. -/
theorem windowStart_before {limit : AttemptLimit} {now : Instant} (after : from' ≤ now)
    (before : now < limit.windowStart from' + limit.window) :
    limit.windowStart now = limit.windowStart from' := by
  rw [AttemptLimit.windowStart_eq, AttemptLimit.windowStart_eq] at *
  exact (Windows.start_eq_iff limit.window_pos now from').mpr
    ⟨le_trans (Windows.start_le limit.window_pos from') after, before⟩

/-- The instants of a span after the boundary are in the window it opens. -/
theorem windowStart_after {limit : AttemptLimit} {now : Instant}
    (after : limit.windowStart from' + limit.window ≤ now) (before : now < from' + limit.window) :
    limit.windowStart now = limit.windowStart from' + limit.window := by
  have positive := limit.window_pos
  rw [AttemptLimit.windowStart_eq, AttemptLimit.windowStart_eq] at *
  have later : Windows.start limit.window (from' + limit.window) =
      Windows.start limit.window from' + limit.window := by
    have shifted := @Windows.start_sub _ (from' + limit.window) positive
    rw [Int.add_sub_cancel] at shifted
    rw [shifted, Int.sub_add_cancel]
  rw [← later]
  refine (Windows.start_eq_iff positive now (from' + limit.window)).mpr ⟨by rwa [later], ?_⟩
  exact lt_trans before (Windows.lt_start positive _)

theorem SpanBounded.empty : SpanBounded contract dimension bucket from' [] where
  first := Nat.zero_le _
  both := by simp

/-- An attempt that is let through leaves room for what was counted. -/
theorem Tallied.admitted (tallied : Tallied contract events rows)
    (forward : ∀ earlier ∈ events, earlier.call.now ≤ event.call.now)
    (small : (contract.get dimension).limit ≤ u32Max)
    (step : (attemptSystem contract).Step rows event after)
    (admits : event.admitted contract dimension bucket from' until' = true) :
    from' ≤ event.call.now ∧ event.call.now < until' ∧
      min (madeIn contract dimension bucket ((contract.get dimension).windowStart event.call.now -
        (contract.get dimension).window) (events ++ [event])) (contract.get dimension).limit /
          (contract.get dimension).seconds +
        madeIn contract dimension bucket ((contract.get dimension).windowStart event.call.now)
          (events ++ [event]) ≤ (contract.get dimension).limit := by
  obtain ⟨now, state, call, answer, after', before, within⟩ := admitted_cases admits
  obtain ⟨faults, runs⟩ := step
  have did := AttemptEvent.answer_ok answer
  have reading : event.call.now = now := by
    rw [call]
    rfl
  rw [did, call] at runs
  have counts := tallied.answered (fun earlier member => reading ▸ forward earlier member) runs call did
  obtain rfl := AttemptOutcome.counted.inj counts
  have positive := (contract.get dimension).window_pos
  have opened : (contract.get dimension).windowStart now ≤ now := by
    rw [AttemptLimit.windowStart_eq]
    exact Windows.start_le positive now
  have closes : now < (contract.get dimension).windowStart now +
      (contract.get dimension).window := by
    rw [AttemptLimit.windowStart_eq]
    exact Windows.lt_start positive now
  have room := (AttemptLimit.exceededBy_false opened closes).mp within
  have left := AttemptLimit.remaining_pos closes
  have ceiling : (contract.get dimension).limit < AttemptState.ceiling :=
    lt_of_le_of_lt small (by decide)
  rw [reading]
  refine ⟨after', before, ?_⟩
  dsimp only at room
  generalize madeIn contract dimension bucket ((contract.get dimension).windowStart now)
    (events ++ [event]) = current at room ⊢
  generalize madeIn contract dimension bucket ((contract.get dimension).windowStart now -
    (contract.get dimension).window) (events ++ [event]) = previous at room ⊢
  have tail : min previous (contract.get dimension).limit / (contract.get dimension).seconds ≤
      min previous AttemptState.ceiling *
        (contract.get dimension).remaining ((contract.get dimension).windowStart now) now /
          (contract.get dimension).seconds := by
    refine Nat.div_le_div_right (le_trans ?_ (Nat.le_mul_of_pos_right _ left))
    omega
  have counted : min current AttemptState.ceiling = current :=
    min_eq_left (by
      have le := le_trans (Nat.le_add_left _ _) room
      omega)
  rw [counted] at room
  exact le_trans (Nat.add_le_add_right tail _) room

/-- One more call keeps the bounds. -/
theorem SpanBounded.step (bounded : SpanBounded contract dimension bucket from' events)
    (tallied : Tallied contract events rows) (forward : ∀ earlier ∈ events,
      earlier.call.now ≤ event.call.now) (small : (contract.get dimension).limit ≤ u32Max)
    (step : (attemptSystem contract).Step rows event after) :
    SpanBounded contract dimension bucket from' (events ++ [event]) := by
  have before : (events ++ [event]).countP (AttemptEvent.admitted contract dimension bucket from'
      ((contract.get dimension).windowStart from' + (contract.get dimension).window)) ≤
      madeIn contract dimension bucket ((contract.get dimension).windowStart from') (events ++ [event]) :=
    admitted_le fun now => windowStart_before
  by_cases early : event.admitted contract dimension bucket from'
      ((contract.get dimension).windowStart from' + (contract.get dimension).window) = true
  · obtain ⟨from'', until'', room⟩ := tallied.admitted forward small step early
    rw [windowStart_before from'' until''] at room
    have none : (events ++ [event]).countP (AttemptEvent.admitted contract dimension bucket
        ((contract.get dimension).windowStart from' + (contract.get dimension).window) (from' + (contract.get dimension).window)) = 0 := by
      refine List.countP_eq_zero.mpr fun other member admits => ?_
      obtain ⟨now, _, call, _, later, _⟩ := admitted_cases admits
      have reading : other.call.now = now := by
        rw [call]
        rfl
      have le : other.call.now ≤ event.call.now := by
        obtain earlier | same := List.mem_append.mp member
        · exact forward other earlier
        · rw [List.mem_singleton.mp same]
      rw [reading] at le
      exact absurd (lt_of_le_of_lt le until'') (not_lt.mpr later)
    constructor
    · exact le_trans before (le_trans (Nat.le_add_left _ _) room)
    · rw [none, Nat.add_zero]
      exact le_trans (Nat.div_le_self _ _) (le_trans before (le_trans (Nat.le_add_left _ _) room))
  · have same : (events ++ [event]).countP (AttemptEvent.admitted contract dimension bucket from'
        ((contract.get dimension).windowStart from' + (contract.get dimension).window)) = events.countP (AttemptEvent.admitted contract
          dimension bucket from' ((contract.get dimension).windowStart from' + (contract.get dimension).window)) := by
      rw [countP_append_admitted, if_neg early, Nat.add_zero]
    constructor
    · rw [same]
      exact bounded.first
    · by_cases late : event.admitted contract dimension bucket
          ((contract.get dimension).windowStart from' + (contract.get dimension).window) (from' + (contract.get dimension).window) = true
      · obtain ⟨from'', until'', room⟩ := tallied.admitted forward small step late
        have boundary : (contract.get dimension).windowStart ((contract.get dimension).windowStart from' + (contract.get dimension).window) =
            (contract.get dimension).windowStart from' + (contract.get dimension).window :=
          windowStart_after le_rfl (lt_of_le_of_lt from'' until'')
        have later := @admitted_le contract dimension bucket
          ((contract.get dimension).windowStart from' + (contract.get dimension).window) (from' + (contract.get dimension).window) (events ++ [event])
          fun now after before => (windowStart_after after before).trans boundary.symm
        rw [boundary] at later
        rw [windowStart_after from'' until'', Int.add_sub_cancel] at room
        have first := bounded.first
        rw [← same] at first
        refine le_trans (Nat.add_le_add (Nat.div_le_div_right ?_) later) room
        exact le_min before first
      · rw [same, countP_append_admitted, if_neg late, Nat.add_zero]
        exact bounded.both

/-- A share of a sum is at most the share of a part and the rest. -/
theorem share_le {part whole seconds : Nat} (some : 0 < seconds) (le : part ≤ whole) :
    whole / seconds ≤ part / seconds + (whole - part) := by
  rw [← Nat.add_mul_div_right part (whole - part) some]
  refine Nat.div_le_div_right ?_
  have := Nat.le_mul_of_pos_right (whole - part) some
  omega

/-- **What a span lets through**: twice the limit, but for one second's share of it. -/
theorem admitted_bound {first : List AttemptRow} (initial : (attemptSystem contract).Initial first)
    (run : (attemptSystem contract).Run first events rows) (forward : Forward events)
    (small : (contract.get dimension).limit ≤ u32Max) :
    events.countP (AttemptEvent.admitted contract dimension bucket from'
      (from' + (contract.get dimension).window)) ≤ (contract.get dimension).limit +
        ((contract.get dimension).limit -
          (contract.get dimension).limit / (contract.get dimension).seconds) := by
  have bounded : SpanBounded contract dimension bucket from' events := by
    induction run with
    | refl => exact .empty
    | snoc previous step ih =>
        obtain ⟨before, last⟩ := forward.last
        exact (ih before).step (tallied_run initial previous before) last small step
  obtain ⟨le, ge⟩ := boundary_le (contract.get dimension) from'
  rw [admitted_split le ge]
  obtain ⟨first, both⟩ := bounded
  have share := share_le (contract.get dimension).seconds_pos first
  have less := Nat.div_le_self (contract.get dimension).limit (contract.get dimension).seconds
  omega

/-! ## A span that lets all of it through -/

/-- A run that has let attempts of one instant through. -/
structure Burst (contract : AbuseContract) (dimension : AttemptDimension) (bucket : AttemptBucket)
    (events : List AttemptEvent) (now : Instant) (count : Nat) (more : List AttemptEvent)
    (rows : List AttemptRow) : Prop where
  run : (attemptSystem contract).Run [] (events ++ more) rows
  forward : Forward (events ++ more)
  length : more.length = count
  admits : ∀ event ∈ more, event.call.now = now ∧ ∀ from' until', from' ≤ now → now < until' →
    event.admitted contract dimension bucket from' until' = true
  opened : madeIn contract dimension bucket ((contract.get dimension).windowStart now)
    (events ++ more) = madeIn contract dimension bucket ((contract.get dimension).windowStart now)
      events + count
  others : ∀ start, start ≠ (contract.get dimension).windowStart now →
    madeIn contract dimension bucket start (events ++ more) =
      madeIn contract dimension bucket start events

/-- As many attempts of one instant are let through as there is room for. -/
theorem burst {now : Instant} (run : (attemptSystem contract).Run [] events rows)
    (forward : Forward events) (behind : ∀ earlier ∈ events, earlier.call.now ≤ now) {count : Nat}
    (room : madeIn contract dimension bucket ((contract.get dimension).windowStart now -
        (contract.get dimension).window) events *
          (contract.get dimension).remaining ((contract.get dimension).windowStart now) now /
            (contract.get dimension).seconds +
      madeIn contract dimension bucket ((contract.get dimension).windowStart now) events + count ≤
        (contract.get dimension).limit) :
    ∃ more after, Burst contract dimension bucket events now count more after := by
  have positive := (contract.get dimension).window_pos
  have earlier : (contract.get dimension).windowStart now - (contract.get dimension).window ≠
      (contract.get dimension).windowStart now := ne_of_lt (Int.sub_lt_self _ positive)
  induction count with
  | zero =>
      refine ⟨[], rows, by rwa [List.append_nil], by rwa [List.append_nil], rfl, by simp, ?_, ?_⟩
      · rw [List.append_nil, Nat.add_zero]
      · exact fun start _ => by rw [List.append_nil]
  | succ count ih =>
      obtain ⟨more, rows', so⟩ := ih (by omega)
      have tallied := tallied_run rfl so.run so.forward
      have before : ∀ event ∈ events ++ more, event.call.now ≤ now := by
        intro event member
        obtain member | member := List.mem_append.mp member
        · exact behind event member
        · exact le_of_eq (so.admits event member).1
      obtain ⟨outcome, after, runs⟩ := @observe_quiet contract dimension bucket rows' now tallied.keyed
      have counts := @Tallied.answered contract dimension bucket _ _ _
        ⟨.observe dimension bucket now, .ok (.observed outcome), none⟩ now outcome _ tallied before
        runs rfl rfl
      obtain ⟨state, rfl⟩ : ∃ state, outcome = .counted state := ⟨_, counts⟩
      generalize told : AttemptEvent.mk (.observe dimension bucket now)
        (.ok (.observed (.counted state))) none = event at counts
      replace counts := AttemptOutcome.counted.inj counts
      have made : ∀ start, madeIn contract dimension bucket start (events ++ (more ++ [event])) =
          madeIn contract dimension bucket start (events ++ more) +
            if (contract.get dimension).windowStart now = start then 1 else 0 := by
        intro start
        rw [← List.append_assoc, madeIn_append, ← told]
        simp only [AttemptEvent.made, decide_true, Bool.true_and, decide_eq_true_eq]
      refine ⟨more ++ [event], after, ?_, ?_, ?_, ?_, ?_, ?_⟩
      · rw [← List.append_assoc]
        refine .snoc so.run ⟨Client.quiet, ?_⟩
        rw [← told]
        exact runs
      · rw [← List.append_assoc]
        unfold Forward
        rw [List.map_append, List.pairwise_append]
        refine ⟨so.forward, List.pairwise_singleton _ _, ?_⟩
        rintro _ earlier _ last
        obtain ⟨other, member, rfl⟩ := List.mem_map.mp earlier
        obtain rfl := List.mem_singleton.mp last
        rw [← told]
        exact before other member
      · rw [List.length_append, so.length, List.length_singleton]
      · intro other member
        obtain member | member := List.mem_append.mp member
        · exact so.admits other member
        · obtain rfl := List.mem_singleton.mp member
          have call : other.call = .observe dimension bucket now := by rw [← told]
          refine ⟨by rw [call]; rfl, fun from' until' after before => ?_⟩
          have opened : (contract.get dimension).windowStart now ≤ now := by
            rw [AttemptLimit.windowStart_eq]
            exact Windows.start_le positive now
          have closes : now < (contract.get dimension).windowStart now +
              (contract.get dimension).window := by
            rw [AttemptLimit.windowStart_eq]
            exact Windows.lt_start positive now
          refine admitted_of call (by rw [← told]; rfl) after before ?_
          rw [counts, AttemptLimit.exceededBy_false opened closes]
          dsimp only
          rw [List.append_assoc, made, made, if_pos rfl, if_neg earlier.symm, so.opened,
            so.others _ earlier, Nat.add_zero]
          refine le_trans (Nat.add_le_add (Nat.div_le_div_right (Nat.mul_le_mul_right _
            (min_le_left _ _))) (min_le_left _ _)) ?_
          omega
      · rw [made, if_pos rfl, so.opened, Nat.add_assoc]
      · intro start other
        rw [made, if_neg (Ne.symm other), so.others start other, Nat.add_zero]

/-- An instant before a boundary, and one in the last second of the window after it. -/
theorem burst_times {seconds : Nat} (some : 0 < seconds) {window boundary last : Int}
    (whole : window = seconds * 1000000) (opens : boundary = 0 + window)
    (closes : last = boundary + (seconds - 1 : Nat) * 1000000) :
    0 ≤ window - 1 ∧ window - 1 < 0 + window ∧ boundary ≤ last ∧ last < window - 1 + window ∧
      window - 1 ≤ last ∧ window - 1 < window - 1 + window ∧
        seconds - AttemptLimit.secondsBetween boundary last = 1 := by
  unfold AttemptLimit.secondsBetween
  omega

/-- **All of it can be let through** within one span. -/
theorem bursts_reached (contract : AbuseContract) (dimension : AttemptDimension)
    (bucket : AttemptBucket) : ∃ events rows, (attemptSystem contract).Run [] events rows ∧
      Forward events ∧ ∃ from', events.countP (AttemptEvent.admitted contract dimension bucket from'
        (from' + (contract.get dimension).window)) = (contract.get dimension).limit +
          ((contract.get dimension).limit -
            (contract.get dimension).limit / (contract.get dimension).seconds) := by
  have whole := (contract.get dimension).window_eq
  obtain ⟨after, before, late, within, ordered, spans, left⟩ :=
    burst_times (contract.get dimension).seconds_pos whole rfl rfl
  generalize first' : (contract.get dimension).window - 1 = early at after before within ordered spans
  generalize last' : 0 + (contract.get dimension).window +
    (((contract.get dimension).seconds - 1 : Nat) : Int) * 1000000 = last at late within ordered left
  have zero : (contract.get dimension).windowStart 0 = 0 := by
    rw [AttemptLimit.windowStart_eq]
    unfold Windows.start
    rw [Int.zero_ediv, Int.zero_mul]
  have opened : (contract.get dimension).windowStart early = 0 := by
    rw [← zero] at before ⊢
    exact windowStart_before after before
  have boundary : (contract.get dimension).windowStart last =
      0 + (contract.get dimension).window := by
    rw [← opened] at late ⊢
    exact windowStart_after late within
  have positive := (contract.get dimension).window_pos
  obtain ⟨more, rows, so⟩ := @burst contract dimension bucket [] [] early .refl List.Pairwise.nil
    (by simp) (contract.get dimension).limit (by simp [madeIn])
  have behind : ∀ event ∈ [] ++ more, event.call.now ≤ last := fun event member =>
    le_trans (le_of_eq (so.admits event member).1) ordered
  have previous : madeIn contract dimension bucket ((contract.get dimension).windowStart last -
      (contract.get dimension).window) ([] ++ more) = (contract.get dimension).limit := by
    have moved := so.opened
    rw [opened] at moved
    rw [boundary, Int.add_sub_cancel, moved]
    exact Nat.zero_add _
  have current : madeIn contract dimension bucket ((contract.get dimension).windowStart last)
      ([] ++ more) = 0 := by
    rw [so.others _ ?_]
    · rfl
    · rw [boundary, opened, Int.zero_add]
      exact ne_of_gt positive
  obtain ⟨rest, rows', also⟩ := @burst contract dimension bucket _ rows last so.run so.forward behind
    ((contract.get dimension).limit -
      (contract.get dimension).limit / (contract.get dimension).seconds) (by
      rw [previous, current, boundary]
      have one : (contract.get dimension).remaining (0 + (contract.get dimension).window) last = 1 :=
        left
      have less := Nat.div_le_self (contract.get dimension).limit (contract.get dimension).seconds
      rw [one, Nat.mul_one]
      omega)
  refine ⟨_, rows', also.run, also.forward, early, ?_⟩
  rw [List.countP_eq_length.mpr ?_, List.length_append, List.nil_append, so.length, also.length]
  intro event member
  obtain member | member := List.mem_append.mp member
  · exact (so.admits event member).2 _ _ le_rfl spans
  · exact (also.admits event member).2 _ _ ordered within

end Bound

/-- **Any span as long as the window lets through the limit, and one more**, where the
limit is at most one above a second's share of it, and nowhere else. -/
theorem bursts_bounded_iff (contract : AbuseContract) (dimension : AttemptDimension)
    (small : (contract.get dimension).limit ≤ u32Max) :
    (∀ first events rows, (attemptSystem contract).Initial first →
      (attemptSystem contract).Run first events rows → Forward events → ∀ bucket from',
        events.countP (AttemptEvent.admitted contract dimension bucket from'
          (from' + (contract.get dimension).window)) ≤ (contract.get dimension).limit + 1) ↔
      (contract.get dimension).limit ≤
        (contract.get dimension).limit / (contract.get dimension).seconds + 1 := by
  constructor
  · intro bounded
    obtain ⟨events, rows, run, forward, from', reached⟩ :=
      bursts_reached contract dimension ⟨0, by decide⟩
    have le := bounded [] events rows rfl run forward ⟨0, by decide⟩ from'
    rw [reached] at le
    omega
  · intro share first events rows initial run forward bucket from'
    have le := @admitted_bound contract dimension bucket from' events rows first initial run forward
      small
    omega

/-- The shipped limit of the attempts to log in on an account: twenty in fifteen minutes. -/
def logIns : AbuseContract := ⟨fun _ => ⟨20, 900, by decide, by decide⟩⟩

/-- One attempt in fifteen minutes. -/
def oneAttempt : AbuseContract := ⟨fun _ => ⟨1, 900, Nat.one_pos, by decide⟩⟩

/-- The shipped limit is above its share; a limit of one is not, and a run lets two attempts
through in fifteen minutes, one more than it. -/
theorem logIns_bounded_iff :
    ((∀ first events rows, (attemptSystem logIns).Initial first →
      (attemptSystem logIns).Run first events rows → Forward events → ∀ bucket from',
        events.countP (AttemptEvent.admitted logIns .logInAccount bucket from'
          (from' + (logIns.get .logInAccount).window)) ≤ (logIns.get .logInAccount).limit + 1) ↔
      (logIns.get .logInAccount).limit ≤
        (logIns.get .logInAccount).limit / (logIns.get .logInAccount).seconds + 1) ∧
    (∀ first events rows, (attemptSystem oneAttempt).Initial first →
      (attemptSystem oneAttempt).Run first events rows → Forward events → ∀ bucket from',
        events.countP (AttemptEvent.admitted oneAttempt .logInAccount bucket from'
          (from' + (oneAttempt.get .logInAccount).window)) ≤ 2) ∧
    ∃ events rows, (attemptSystem oneAttempt).Run [] events rows ∧ Forward events ∧
      ∃ from', events.countP (AttemptEvent.admitted oneAttempt .logInAccount ⟨0, by decide⟩ from'
        (from' + (oneAttempt.get .logInAccount).window)) = 2 :=
  ⟨bursts_bounded_iff logIns .logInAccount (by decide),
    (bursts_bounded_iff oneAttempt .logInAccount (by decide)).mpr (by decide),
    bursts_reached oneAttempt .logInAccount ⟨0, by decide⟩⟩

/-- Forty are let through in fifteen minutes. -/
theorem logIns_bursts : ¬ ∀ first events rows, (attemptSystem logIns).Initial first →
    (attemptSystem logIns).Run first events rows → Forward events → ∀ bucket from',
      events.countP (AttemptEvent.admitted logIns .logInAccount bucket from'
        (from' + (logIns.get .logInAccount).window)) ≤ (logIns.get .logInAccount).limit + 1 := by
  intro bounded
  obtain ⟨events, rows, run, forward, from', reached⟩ :=
    bursts_reached logIns .logInAccount ⟨0, by decide⟩
  have le := bounded [] events rows rfl run forward ⟨0, by decide⟩ from'
  rw [reached] at le
  exact absurd le (by decide)

end Renvor
