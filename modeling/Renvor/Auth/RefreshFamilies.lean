import Renvor.Auth.RefreshRuns

/-! # Families of refresh tokens under any interleaving

However rotations, replays, revocations and logins interleave, and wherever the
database fails them, a family has at most one live token, a token is rotated
once, a tombstone is final, and a replay ends its family and no other
(`Renvor.families_disciplined`).
-/

namespace Renvor

open Foundation
open Foundation.Interleaving (Event World)

/-- The refresh-token store's states. -/
abbrev RefreshWorld (Session : Type) :=
  World Session (RefreshTables Session) RefreshSql RefreshSql.Reply RefreshCall DatabaseErrorKind
    RefreshAnswer

abbrev RefreshEvent (Session : Type) := Event Session RefreshCall DatabaseErrorKind RefreshAnswer

/-- The store under every interleaving of calls. -/
abbrev refreshSystem (Session : Type) [DecidableEq Session] :
    TransitionSystem (RefreshWorld Session) (RefreshEvent Session) :=
  (refreshWorkload Session).system

namespace RefreshWorld

variable {Session : Type}

/-- The committed families. -/
def families (world : RefreshWorld Session) : List FamilyRow := world.store.families.committed

/-- The committed tokens. -/
def tokens (world : RefreshWorld Session) : List TokenRow := world.store.tokens.committed

end RefreshWorld

/-- The answer says that the presented token was rotated. -/
def RefreshEvent.advances {Session : Type} (presented : SecretDigest) :
    RefreshEvent Session → Bool
  | .answered _ (.advance request) (.ok (.transition .advanced)) =>
      decide (request.presented = presented)
  | _ => false

theorem RefreshEvent.of_advances {Session : Type} {event : RefreshEvent Session}
    {presented : SecretDigest} (advances : RefreshEvent.advances presented event = true) :
    ∃ session request, event = .answered session (.advance request) (.ok (.transition .advanced)) ∧
      request.presented = presented := by
  unfold RefreshEvent.advances at advances
  split at advances
  · exact ⟨_, _, rfl, of_decide_eq_true advances⟩
  · cases advances

/-- What holds of every family in every run. -/
structure FamilyDiscipline (Session : Type) [DecidableEq Session] : Prop where
  /-- A family has at most one live token. -/
  oneLive : ∀ world, (refreshSystem Session).Reachable world → ∀ family,
    world.tokens.countP (fun token => token.familyId = family && token.live) ≤ 1
  /-- A token is answered with a rotation at most once. -/
  advancedOnce : ∀ first events world, (refreshSystem Session).Initial first →
    (refreshSystem Session).Run first events world → ∀ presented,
    events.countP (RefreshEvent.advances presented) ≤ 1
  /-- A tombstone stays as it is, and nothing lives in its family or comes to it. -/
  tombstoneFinal : ∀ before events after, (refreshSystem Session).Reachable before →
    (refreshSystem Session).Run before events after → ∀ family ∈ before.families, ∀ instant,
    family.revokedAt = some instant →
    (∃ later ∈ after.families, later.id = family.id ∧ later.revokedAt = some instant) ∧
      ∀ token ∈ after.tokens, token.familyId = family.id →
        token.live = false ∧ ∃ earlier ∈ before.tokens, earlier.Evolves token
  /-- A token presented after it was consumed or revoked ends its family, and the
  answer touches no other. -/
  replayed : ∀ before first events last after session request called transition,
    (refreshSystem Session).Reachable before →
    (refreshSystem Session).Step before (.started session (.advance request)) first →
    (refreshSystem Session).Run first events last → (∀ event ∈ events, ¬ event.Ends session) →
    (refreshSystem Session).Step last (.answered session called (.ok (.transition transition)))
      after →
    ∀ family ∈ before.families, ∀ token ∈ before.tokens, token.tokenHash = request.presented →
      token.familyId = family.id → token.live = false → request.now < family.expiresAt →
    (∀ other ∈ after.tokens, other.familyId = family.id → other.revokedAt.isSome = true) ∧
      (∃ later ∈ after.families, later.id = family.id ∧ later.revokedAt.isSome = true) ∧
      after.families.filter (fun row => row.id ≠ family.id) =
        last.families.filter (fun row => row.id ≠ family.id) ∧
      after.tokens.filter (fun row => row.familyId ≠ family.id) =
        last.tokens.filter (fun row => row.familyId ≠ family.id)
  /-- What is committed changes only where a call is answered. -/
  answersCommit : ∀ before event after, (refreshSystem Session).Step before event after →
    (∀ session call result, event ≠ .answered session call result) →
    after.families = before.families ∧ after.tokens = before.tokens

open RefreshTables

variable {Session : Type} [DecidableEq Session] {before after : RefreshWorld Session}
  {event : RefreshEvent Session}

/-- The invariant holds in every reachable state. -/
theorem RefreshWorld.sound (reachable : (refreshSystem Session).Reachable before) :
    Interleaving.Outlined.Sound (refreshWorkload Session) (outlining Session) before :=
  (refresh_outlined Session).sound.reachable reachable

/-- The store's calls keep its tables. -/
theorem refresh_keeps (Session : Type) [DecidableEq Session] :
    KeepsTables (refreshWorkload Session) where
  engine := rfl
  sound _ reachable := ((refresh_outlined Session).sound.reachable reachable).invariant

theorem RefreshWorld.families_answered {session : Session}
    (commits : after.store = before.store.commit session) :
    after.families = before.store.families.view session := by
  rw [families, commits, RefreshTables.commit, LockedTable.committed_commit]

theorem RefreshWorld.tokens_answered {session : Session}
    (commits : after.store = before.store.commit session) :
    after.tokens = before.store.tokens.view session := by
  rw [tokens, commits, RefreshTables.commit, LockedTable.committed_commit]

/-! ## One live token -/

theorem RefreshWorld.one_live (reachable : (refreshSystem Session).Reachable before)
    (family : FamilyId) :
    before.tokens.countP (fun token => token.familyId = family && token.live) ≤ 1 := by
  have tables := (sound reachable).invariant
  refine tables.tokenIds.countP_le_one fun first among second others one two => ?_
  simp only [Bool.and_eq_true, decide_eq_true_eq] at one two
  obtain ⟨home, housed, named⟩ := tables.kept.homed first among
  exact (tables.kept.each home housed).one first among second others named.symm
    (two.1.trans (one.1.symm.trans named.symm)) one.2 two.2

/-! ## Tombstones -/

/-- No step takes a tombstone back or brings a token to its family. -/
theorem RefreshWorld.tombstone_run {events : List (RefreshEvent Session)}
    (reachable : (refreshSystem Session).Reachable before)
    (run : (refreshSystem Session).Run before events after) {family : FamilyRow}
    (member : family ∈ before.families) {instant : Instant}
    (tombstone : family.revokedAt = some instant) {token : TokenRow} (among : token ∈ after.tokens)
    (same : token.familyId = family.id) : ∃ earlier ∈ before.tokens, earlier.Evolves token := by
  induction run generalizing token with
  | refl => exact ⟨token, among, .refl token⟩
  | snoc previous step ih =>
      have committed := (refresh_keeps Session).step_committed (reachable.run previous) step
      obtain ⟨row, inside, evolves⟩ | unset := committed.origin token among
      · obtain ⟨earlier, there, again⟩ := ih inside (evolves.familyId.symm.trans same)
        exact ⟨earlier, there, again.trans evolves⟩
      · obtain ⟨later, present, evolves⟩ := (refresh_keeps Session).families_run reachable previous member
        have none := unset later present (evolves.id.trans same.symm)
        rw [evolves.revokedAt instant tombstone] at none
        cases none

/-! ## Rotations -/

/-- A rotation finds its token live and leaves it consumed. -/
theorem RefreshWorld.advance_spends (reachable : (refreshSystem Session).Reachable before)
    (step : (refreshSystem Session).Step before event after) {presented : SecretDigest}
    (advances : RefreshEvent.advances presented event = true) :
    (∃ token ∈ before.tokens, token.tokenHash = presented ∧ token.live = true) ∧
      ∃ token ∈ after.tokens, token.tokenHash = presented ∧ token.live = false := by
  have invariant := sound reachable
  obtain ⟨session, request, rfl, rfl⟩ := RefreshEvent.of_advances advances
  obtain ⟨start, ends, commits⟩ := invariant.answered step
  obtain ⟨family, token, rotated, _, _, digest, _, live⟩ := ends.transition request _ rfl rfl
  have own : rewritten session token (request.consumed token) ∈
      before.store.tokens.mine session := rotated.tokens ▸ .inr rfl
  have seen : request.consumed token ∈ before.store.tokens.view session :=
    LockedTable.mem_view.mpr ⟨_, own.1, Slot.view_held rfl⟩
  refine ⟨⟨token, LockedTable.mem_committed.mpr ⟨_, own.1, rfl⟩, digest, live⟩,
    request.consumed token, ?_, digest, rfl⟩
  rw [tokens_answered commits]
  exact seen

/-- Two committed tokens with one digest are one. -/
theorem RefreshWorld.digest_same (reachable : (refreshSystem Session).Reachable before)
    {first second : TokenRow} (one : first ∈ before.tokens) (two : second ∈ before.tokens)
    (same : first.tokenHash = second.tokenHash) : first = second :=
  (sound reachable).invariant.digests.committed_same one two same

theorem RefreshWorld.advanced_once {first last : RefreshWorld Session}
    {events : List (RefreshEvent Session)} (initial : (refreshSystem Session).Initial first)
    (run : (refreshSystem Session).Run first events last) (presented : SecretDigest) :
    events.countP (RefreshEvent.advances presented) ≤ 1 ∧
      (0 < events.countP (RefreshEvent.advances presented) →
        ∃ token ∈ last.tokens, token.tokenHash = presented ∧ token.live = false) := by
  induction run with
  | refl => exact ⟨Nat.zero_le 1, fun none => absurd none (Nat.lt_irrefl 0)⟩
  | @snoc events before after event previous step ih =>
      have reachable : (refreshSystem Session).Reachable before := ⟨first, _, initial, previous⟩
      obtain ⟨atMost, spent⟩ := ih
      rw [List.countP_append, List.countP_singleton]
      by_cases advances : RefreshEvent.advances presented event = true
      · obtain ⟨⟨token, inside, digest, live⟩, consumed⟩ := advance_spends reachable step advances
        have none : events.countP (RefreshEvent.advances presented) = 0 := by
          refine Nat.eq_zero_of_not_pos fun some => ?_
          obtain ⟨other, among, equal, dead⟩ := spent some
          obtain rfl := digest_same reachable inside among (digest.trans equal.symm)
          rw [live] at dead
          cases dead
        rw [none, if_pos advances]
        exact ⟨le_rfl, fun _ => consumed⟩
      · rw [if_neg advances]
        refine ⟨atMost, fun some => ?_⟩
        obtain ⟨token, inside, digest, dead⟩ := spent some
        obtain ⟨later, present, evolves⟩ := ((refresh_keeps Session).step_committed reachable step).tokens token inside
        exact ⟨later, present, evolves.tokenHash.trans digest, evolves.spent dead⟩

/-! ## Replays -/

/-- The rows of a session that swept a family are all the family's. -/
private theorem RefreshTables.Swept.apart {tables : RefreshTables Session} {session : Session}
    {named : FamilyId} (swept : Swept session named tables) (sound : tables.Sound) :
    (tables.families.view session).filter (fun row => row.id ≠ named) =
        tables.families.committed.filter (fun row => row.id ≠ named) ∧
      (tables.tokens.view session).filter (fun row => row.familyId ≠ named) =
        tables.tokens.committed.filter (fun row => row.familyId ≠ named) := by
  constructor
  · refine LockedTable.filter_view fun slot mine row among => ?_
    obtain ⟨base, version, rfl, rfl, _⟩ := swept.held slot mine
    have evolves := sound.families _ mine.1 base rfl session version rfl
    obtain committed | ⟨_, held⟩ := Slot.mem_versions.mp among
    · cases committed
      simp [evolves.id]
    · cases held
      simp
  · refine LockedTable.filter_view fun slot mine row among => ?_
    obtain ⟨base, version, rfl, rfl⟩ := swept.own slot mine
    have evolves := sound.tokens _ mine.1 base rfl session version rfl
    obtain committed | ⟨_, held⟩ := Slot.mem_versions.mp among
    · cases committed
      simp [evolves.familyId]
    · cases held
      simp

/-- **A spent token that is presented ends its family and no other.** -/
theorem RefreshWorld.replay_ends {first last : RefreshWorld Session}
    {events : List (RefreshEvent Session)} {session : Session} {request : AdvanceRequest}
    {called : RefreshCall} {transition : RefreshTransition}
    (reachable : (refreshSystem Session).Reachable before)
    (started : (refreshSystem Session).Step before (.started session (.advance request)) first)
    (run : (refreshSystem Session).Run first events last)
    (open' : ∀ event ∈ events, ¬ event.Ends session)
    (step : (refreshSystem Session).Step last
      (.answered session called (.ok (.transition transition))) after)
    {family : FamilyRow} (member : family ∈ before.families) {token : TokenRow}
    (among : token ∈ before.tokens) (digest : token.tokenHash = request.presented)
    (same : token.familyId = family.id) (spent : token.live = false)
    (unexpired : request.now < family.expiresAt) :
    (∀ other ∈ after.tokens, other.familyId = family.id → other.revokedAt.isSome = true) ∧
      (∃ later ∈ after.families, later.id = family.id ∧ later.revokedAt.isSome = true) ∧
      after.families.filter (fun row => row.id ≠ family.id) =
        last.families.filter (fun row => row.id ≠ family.id) ∧
      after.tokens.filter (fun row => row.familyId ≠ family.id) =
        last.tokens.filter (fun row => row.familyId ≠ family.id) := by
  obtain ⟨rfl, ends, commits⟩ :=
    (refresh_outlined Session).answered reachable started run open' step
  have whole : (refreshSystem Session).Run before (.started session (.advance request) :: events)
      last := (TransitionSystem.Run.single started).trans run
  have later := reachable.run whole
  have tables := (sound later).invariant
  -- at the answer the token is committed, spent, and of the family
  obtain ⟨token', present, evolves⟩ := (refresh_keeps Session).tokens_run reachable whole among
  have dead := evolves.spent spent
  have digest' := evolves.tokenHash.trans digest
  have named : ∀ {other}, Knows request.presented other last.store → other = family.id := by
    rintro _ ⟨row, committed, equal, rfl⟩
    obtain rfl := digest_same later committed present (equal.trans digest'.symm)
    exact evolves.familyId.trans same
  have alive : ∀ row ∈ last.tokens, row.tokenHash = request.presented → row.live ≠ true := by
    intro row committed equal live
    obtain rfl := digest_same later committed present (equal.trans digest'.symm)
    rw [live] at dead
    cases dead
  rw [families_answered commits, tokens_answered commits]
  have done := ends.transition request transition rfl rfl
  cases transition with
  | advanced =>
      obtain ⟨_, row, rotated, _, _, equal, _, live⟩ := done
      have own : rewritten session row (request.consumed row) ∈ last.store.tokens.mine session :=
        rotated.tokens ▸ .inr rfl
      exact (alive row (LockedTable.mem_committed_of_mine own rfl) equal live).elim
  | replayed revoked =>
      obtain ⟨row, knows, swept, mine⟩ := done
      rw [named knows] at swept
      have own : rewritten session row { row with revokedAt := some request.now } ∈
          last.store.families.mine session := mine ▸ rfl
      have seen := LockedTable.mem_view.mpr ⟨_, own.1, Slot.view_held rfl⟩
      exact ⟨swept.all ⟨_, own⟩, ⟨_, seen, named knows, rfl⟩, swept.apart tables⟩
  | familyRevoked =>
      obtain ⟨row, knows, tombstone, holding⟩ := done
      have own : locked session row ∈ last.store.families.mine session := holding.families ▸ rfl
      have untouched : Untouched session last.store := .of_holding holding
        (fun _ one => ⟨row, one⟩) fun _ none => none.elim
      rw [untouched.families_view, untouched.tokens_view]
      have committed := LockedTable.mem_committed_of_mine own rfl
      refine ⟨fun other inside equal => ?_, ⟨row, committed, named knows, tombstone⟩, rfl, rfl⟩
      exact (tables.kept.each row committed).revoked tombstone other inside
        (equal.trans (named knows).symm)
  | unusable =>
      obtain ⟨_, unknown⟩ | ⟨row, knows, expired, holding⟩ | ⟨_, row, equal, live, holding⟩ := done
      · exact (unknown token among digest).elim
      · have own : locked session row ∈ last.store.families.mine session := holding.families ▸ rfl
        obtain ⟨family', inside, grown⟩ := (refresh_keeps Session).families_run reachable whole member
        obtain rfl := tables.familyIds.committed_same inside (LockedTable.mem_committed_of_mine own rfl)
          (grown.id.trans (named knows).symm)
        rw [grown.expiresAt] at expired
        exact absurd unexpired (not_lt.mpr expired)
      · have own : locked session row ∈ last.store.tokens.mine session := holding.tokens ▸ rfl
        exact (alive row (LockedTable.mem_committed_of_mine own rfl) equal live).elim

/-- **Families are disciplined** in every run of the refresh-token store: however its
transactions interleave and wherever they fail. A family has one live token at most, each token
advances it once, what revoked it is final, and a spent token that is presented again revokes it. -/
theorem families_disciplined (Session : Type) [DecidableEq Session] : FamilyDiscipline Session where
  oneLive _ reachable family := RefreshWorld.one_live reachable family
  advancedOnce _ _ _ initial run presented :=
    (RefreshWorld.advanced_once initial run presented).1
  tombstoneFinal before events after reachable run family member instant tombstone := by
    obtain ⟨later, present, evolves⟩ := (refresh_keeps Session).families_run reachable run member
    have final := evolves.revokedAt instant tombstone
    refine ⟨⟨later, present, evolves.id, final⟩, fun token among same => ⟨?_, ?_⟩⟩
    · have kept := (RefreshWorld.sound (reachable.run run)).invariant.kept.each later present
      have revoked := kept.revoked (by rw [final]; rfl) token among (same.trans evolves.id.symm)
      obtain ⟨moment, set⟩ := Option.isSome_iff_exists.mp revoked
      simp [TokenRow.live, set]
    · exact RefreshWorld.tombstone_run reachable run member tombstone among same
  replayed _ _ _ _ _ _ _ _ _ reachable started run open' step _ member _ among digest same spent
      unexpired :=
    RefreshWorld.replay_ends reachable started run open' step member among digest same spent
      unexpired
  answersCommit before event after step silent := by
    cases step with
    | start | failed => exact ⟨rfl, rfl⟩
    | @statement _ _ statement _ _ _ _ runs =>
        have leaves := run_leaves statement runs
        exact ⟨leaves.families, leaves.tokens⟩
    | committed | commitLost | rolledBack => exact (silent _ _ _ rfl).elim
    | cancel => exact ⟨LockedTable.committed_discard, LockedTable.committed_discard⟩

end Renvor
