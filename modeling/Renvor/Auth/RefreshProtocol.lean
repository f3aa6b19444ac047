import Renvor.Auth.RefreshStore

/-! # The invariant of the refresh-token tables

A family's row and its tokens' rows only ever gain a tombstone, a consumption
and a revocation. Whoever writes more into a family than a revocation holds the
family's lock (`Renvor.RefreshTables.Sound`), so that what a session sees of a
family it has not locked is as good as what is committed of it
(`Renvor.RefreshTables.Sound.kept_view`).
-/

namespace Renvor

open Foundation

/-- What becomes of a family's row: its grant stays, and so does a tombstone. -/
structure FamilyRow.Evolves (before after : FamilyRow) : Prop where
  id : after.id = before.id
  userId : after.userId = before.userId
  scopes : after.scopes = before.scopes
  createdAt : after.createdAt = before.createdAt
  expiresAt : after.expiresAt = before.expiresAt
  revokedAt : ∀ instant, before.revokedAt = some instant → after.revokedAt = some instant

/-- What becomes of a token's row: it is consumed or revoked, and stays so. -/
structure TokenRow.Evolves (before after : TokenRow) : Prop where
  id : after.id = before.id
  familyId : after.familyId = before.familyId
  tokenHash : after.tokenHash = before.tokenHash
  expiresAt : after.expiresAt = before.expiresAt
  consumedAt : ∀ instant, before.consumedAt = some instant → after.consumedAt = some instant
  revokedAt : ∀ instant, before.revokedAt = some instant → after.revokedAt = some instant

/-- Neither consumed nor revoked. -/
def TokenRow.live (token : TokenRow) : Bool := token.consumedAt.isNone && token.revokedAt.isNone

theorem FamilyRow.Evolves.refl (row : FamilyRow) : row.Evolves row :=
  ⟨rfl, rfl, rfl, rfl, rfl, fun _ set => set⟩

theorem FamilyRow.Evolves.trans {first second third : FamilyRow} (left : first.Evolves second)
    (right : second.Evolves third) : first.Evolves third where
  id := right.id.trans left.id
  userId := right.userId.trans left.userId
  scopes := right.scopes.trans left.scopes
  createdAt := right.createdAt.trans left.createdAt
  expiresAt := right.expiresAt.trans left.expiresAt
  revokedAt instant set := right.revokedAt instant (left.revokedAt instant set)

theorem TokenRow.Evolves.refl (row : TokenRow) : row.Evolves row :=
  ⟨rfl, rfl, rfl, rfl, fun _ set => set, fun _ set => set⟩

theorem TokenRow.Evolves.trans {first second third : TokenRow} (left : first.Evolves second)
    (right : second.Evolves third) : first.Evolves third where
  id := right.id.trans left.id
  familyId := right.familyId.trans left.familyId
  tokenHash := right.tokenHash.trans left.tokenHash
  expiresAt := right.expiresAt.trans left.expiresAt
  consumedAt instant set := right.consumedAt instant (left.consumedAt instant set)
  revokedAt instant set := right.revokedAt instant (left.revokedAt instant set)

theorem TokenRow.live_iff {token : TokenRow} :
    token.live = true ↔ token.consumedAt = none ∧ token.revokedAt = none := by
  simp [live]

theorem TokenRow.Evolves.revoked {before after : TokenRow} (evolves : before.Evolves after)
    (revoked : before.revokedAt.isSome = true) : after.revokedAt.isSome = true := by
  obtain ⟨instant, set⟩ := Option.isSome_iff_exists.mp revoked
  exact Option.isSome_iff_exists.mpr ⟨instant, evolves.revokedAt instant set⟩

/-- A version that was not consumed since is live only if the row was. -/
theorem TokenRow.Evolves.live {before after : TokenRow} (evolves : before.Evolves after)
    (unconsumed : after.consumedAt = before.consumedAt) (live : after.live = true) :
    before.live = true := by
  obtain ⟨consumed, revoked⟩ := TokenRow.live_iff.mp live
  refine TokenRow.live_iff.mpr ⟨unconsumed ▸ consumed, ?_⟩
  cases set : before.revokedAt with
  | none => rfl
  | some instant =>
      rw [evolves.revokedAt instant set] at revoked
      cases revoked

theorem FamilyRow.Evolves.revoke {family : FamilyRow} (unset : family.revokedAt = none)
    (now : Instant) : family.Evolves { family with revokedAt := some now } :=
  ⟨rfl, rfl, rfl, rfl, rfl, fun _ set => by cases unset.symm.trans set⟩

theorem TokenRow.Evolves.revoke {token : TokenRow} (unset : token.revokedAt = none)
    (now : Instant) : token.Evolves { token with revokedAt := some now } :=
  ⟨rfl, rfl, rfl, rfl, fun _ set => set, fun _ set => by cases unset.symm.trans set⟩

theorem TokenRow.Evolves.consume {token : TokenRow} (unset : token.consumedAt = none)
    (now : Instant) (successor : RefreshTokenId) :
    token.Evolves { token with consumedAt := some now, replacedBy := some successor } :=
  ⟨rfl, rfl, rfl, rfl, fun _ set => (by cases unset.symm.trans set), fun _ set => set⟩

/-- A spent token stays spent. -/
theorem TokenRow.Evolves.spent {token later : TokenRow} (evolves : token.Evolves later)
    (spent : token.live = false) : later.live = false := by
  cases consumed : token.consumedAt with
  | some instant => simp [TokenRow.live, evolves.consumedAt instant consumed]
  | none =>
      cases revoked : token.revokedAt with
      | some instant => simp [TokenRow.live, evolves.revokedAt instant revoked]
      | none => simp [TokenRow.live, consumed, revoked] at spent

/-- A family has at most one live token, and none once it has its tombstone. -/
structure FamilyRow.Kept (family : FamilyRow) (tokens : List TokenRow) : Prop where
  one : ∀ first ∈ tokens, ∀ second ∈ tokens, first.familyId = family.id →
    second.familyId = family.id → first.live = true → second.live = true → first.id = second.id
  revoked : family.revokedAt.isSome = true → ∀ token ∈ tokens, token.familyId = family.id →
    token.revokedAt.isSome = true

/-- Every family is kept and every token has its family. -/
structure FamiliesKept (families : List FamilyRow) (tokens : List TokenRow) : Prop where
  each : ∀ family ∈ families, family.Kept tokens
  homed : ∀ token ∈ tokens, ∃ family ∈ families, family.id = token.familyId

namespace RefreshTables

variable {Session : Type} {tables after : RefreshTables Session} {session other : Session}

/-- The session holds the lock of a family without a committed tombstone. -/
def Covers (session : Session) (family : FamilyId) (tables : RefreshTables Session) : Prop :=
  ∃ slot ∈ tables.families.mine session, ∃ row, slot.held = some (session, row) ∧
    row.id = family ∧ ∀ base, slot.committed = some base → base.revokedAt = none

/-- The invariant of the tables. -/
structure Sound (tables : RefreshTables Session) : Prop where
  familyIds : tables.families.Keyed FamilyRow.id
  tokenIds : tables.tokens.Keyed TokenRow.id
  digests : tables.tokens.Keyed TokenRow.tokenHash
  families : tables.families.Grown FamilyRow.Evolves
  tokens : tables.tokens.Grown TokenRow.Evolves
  covered : ∀ slot ∈ tables.tokens, ∀ holder version, slot.held = some (holder, version) →
    (∃ row, slot.committed = some row ∧ version.consumedAt = row.consumedAt) ∨
      tables.Covers holder version.familyId
  kept : FamiliesKept tables.families.committed tables.tokens.committed

/-- What stays of another session's cover when a session ends. -/
private theorem Covers.ended {family : FamilyId} {holder : Session}
    {apply : Slot Session FamilyRow → Slot Session FamilyRow}
    (covers : tables.Covers holder family) (changed : after.families = tables.families.map apply)
    (keeps : ∀ slot : Slot Session FamilyRow, slot.HeldBy holder → apply slot = slot) :
    after.Covers holder family := by
  obtain ⟨slot, ⟨member, mine⟩, rest⟩ := covers
  refine ⟨slot, ⟨?_, mine⟩, rest⟩
  rw [changed]
  exact List.mem_map.mpr ⟨slot, member, keeps slot mine⟩

/-- Committed rows only evolve, and no token comes to a family this session
holds. -/
structure Rely (session : Session) (before after : RefreshTables Session) : Prop where
  families : after.families.mine session = before.families.mine session
  tokens : after.tokens.mine session = before.tokens.mine session
  familiesEvolve : ∀ row ∈ before.families.committed, ∃ later ∈ after.families.committed,
    row.Evolves later
  tokensEvolve : ∀ row ∈ before.tokens.committed, ∃ later ∈ after.tokens.committed,
    row.Evolves later
  tokensFrom : ∀ later ∈ after.tokens.committed,
    (∃ row ∈ before.tokens.committed, row.Evolves later) ∨ ∀ slot ∈ before.families.mine session,
      ∀ row, slot.held = some (session, row) → row.id ≠ later.familyId

/-- The session holds nothing. -/
def Idle (session : Session) (tables : RefreshTables Session) : Prop :=
  tables.families.mine session = ∅ ∧ tables.tokens.mine session = ∅

/-- A step that leaves what is committed. -/
theorem Rely.of_committed (families : after.families.mine session = tables.families.mine session)
    (tokens : after.tokens.mine session = tables.tokens.mine session)
    (same : after.families.committed = tables.families.committed)
    (equal : after.tokens.committed = tables.tokens.committed) : Rely session tables after where
  families := families
  tokens := tokens
  familiesEvolve row member := ⟨row, same ▸ member, .refl row⟩
  tokensEvolve row member := ⟨row, equal ▸ member, .refl row⟩
  tokensFrom later member := .inl ⟨later, equal ▸ member, .refl later⟩

/-- A statement changes nothing that is committed or held by another session. -/
structure Leaves (session : Session) (before after : RefreshTables Session) : Prop where
  families : after.families.committed = before.families.committed
  tokens : after.tokens.committed = before.tokens.committed
  others : ∀ other ≠ session, after.families.mine other = before.families.mine other ∧
    after.tokens.mine other = before.tokens.mine other

theorem Leaves.rely (leaves : Leaves session tables after) (different : other ≠ session) :
    Rely other tables after :=
  .of_committed (leaves.others other different).1 (leaves.others other different).2 leaves.families
    leaves.tokens

/-! ## What a session sees -/

variable [DecidableEq Session]

/-- **What a session sees is kept**, once the families it holds are. -/
theorem Sound.kept_view (sound : tables.Sound)
    (own : ∀ slot ∈ tables.families.mine session, ∀ row, slot.held = some (session, row) →
      row.Kept (tables.tokens.view session)) :
    FamiliesKept (tables.families.view session) (tables.tokens.view session) where
  each family seen := by
    obtain ⟨slot, mine, held⟩ | ⟨slot, member, free, base⟩ := LockedTable.mem_view_cases seen
    · exact own slot mine family held
    · have committed : family ∈ tables.families.committed :=
        LockedTable.mem_committed.mpr ⟨slot, member, base⟩
      have kept := sound.kept.each family committed
      -- a token of a family the session does not hold was at most revoked
      have revokedOnly : ∀ token ∈ tables.tokens.view session, token.familyId = family.id →
          ∃ row ∈ tables.tokens.committed, row.Evolves token ∧
            token.consumedAt = row.consumedAt := by
        intro token among same
        obtain ⟨slot', ⟨inside, _⟩, held⟩ | ⟨slot', inside, _, base'⟩ := LockedTable.mem_view_cases among
        · obtain ⟨row, base', unconsumed⟩ | covers := sound.covered slot' inside session token held
          · exact ⟨row, LockedTable.mem_committed.mpr ⟨slot', inside, base'⟩,
              sound.tokens slot' inside row base' session token held, unconsumed⟩
          · obtain ⟨other, ⟨within, mine⟩, row, holds, named, _⟩ := covers
            obtain rfl := sound.familyIds.same member within (Slot.mem_versions.mpr (.inl base))
              (Slot.mem_versions.mpr (.inr ⟨_, holds⟩)) (same.symm.trans named.symm)
            exact (free mine).elim
        · exact ⟨token, LockedTable.mem_committed.mpr ⟨slot', inside, base'⟩, .refl token, rfl⟩
      constructor
      · intro first among second others same equal live alive
        obtain ⟨row, inside, evolves, unconsumed⟩ := revokedOnly first among same
        obtain ⟨row', inside', evolves', unconsumed'⟩ := revokedOnly second others equal
        rw [evolves.id, evolves'.id]
        exact kept.one row inside row' inside' (evolves.familyId.symm.trans same)
          (evolves'.familyId.symm.trans equal) (evolves.live unconsumed live)
          (evolves'.live unconsumed' alive)
      · intro tombstone token among same
        obtain ⟨row, inside, evolves, _⟩ := revokedOnly token among same
        exact evolves.revoked (kept.revoked tombstone row inside (evolves.familyId.symm.trans same))
  homed token seen := by
    have carried : ∀ row ∈ tables.tokens.committed, row.familyId = token.familyId →
        ∃ family ∈ tables.families.view session, family.id = token.familyId := by
      intro row among same
      obtain ⟨family, committed, named⟩ := sound.kept.homed row among
      obtain ⟨slot, member, base⟩ := LockedTable.mem_committed.mp committed
      obtain ⟨version, sees, evolves⟩ := sound.families.seen FamilyRow.Evolves.refl member base
      exact ⟨version, LockedTable.mem_view.mpr ⟨slot, member, sees⟩,
        evolves.id.trans (named.trans same)⟩
    obtain ⟨slot, ⟨inside, _⟩, held⟩ | ⟨slot, inside, _, base⟩ := LockedTable.mem_view_cases seen
    · obtain ⟨row, base, _⟩ | ⟨family, ⟨within, _⟩, row, holds, named, _⟩ :=
        sound.covered slot inside session token held
      · exact carried row (LockedTable.mem_committed.mpr ⟨slot, inside, base⟩)
          (sound.tokens slot inside row base session token held).familyId.symm
      · exact ⟨row, LockedTable.mem_view.mpr ⟨family, within, Slot.view_held holds⟩, named⟩
    · exact carried token (LockedTable.mem_committed.mpr ⟨slot, inside, base⟩) rfl

/-! ## What keeps the invariant -/

/-- A statement on the families that changes no identifier and takes nothing
back keeps the invariant. -/
theorem Sound.updateFamilies (sound : tables.Sound) {condition : FamilyRow → Bool}
    {change : FamilyRow → FamilyRow} (free : tables.families.available session condition = true)
    (evolves : ∀ row, condition row = true → row.Evolves (change row))
    (named : ∀ row, (change row).id = row.id) :
    Sound { tables with families :=
      tables.families.map (Slot.take session condition change) } where
  familyIds := sound.familyIds.take named
  tokenIds := sound.tokenIds
  digests := sound.digests
  families := sound.families.take FamilyRow.Evolves.trans FamilyRow.Evolves.refl evolves
  tokens := sound.tokens
  covered slot member holder version held := by
    obtain row | ⟨family, ⟨inside, mine⟩, row, holds, same, open'⟩ :=
      sound.covered slot member holder version held
    · exact .inl row
    · refine .inr ?_
      by_cases meets : family.meets session condition = true
      · -- the family is the session's own, for the statement does not wait for it
        obtain ⟨seen, sees, meets'⟩ := Slot.meets_iff.mp meets
        have own : holder = session := by
          by_contra different
          exact LockedTable.available_iff.mp free family inside meets (mine.locked different)
        subst own
        obtain rfl := Option.some.inj ((Slot.view_held holds).symm.trans sees)
        refine ⟨_, ⟨List.mem_map_of_mem inside, Slot.take_heldBy.mpr (.inr mine)⟩, change row, ?_,
          (named row).trans same, ?_⟩
        · rw [Slot.take_of_view sees meets']
        · rwa [Slot.take_committed]
      · refine ⟨family, ⟨?_, mine⟩, row, holds, same, open'⟩
        exact List.mem_map.mpr ⟨family, inside, Slot.take_of_not_meets meets⟩
  kept := by
    rw [LockedTable.committed_take]
    exact sound.kept

/-- A statement on the tokens that changes no identifier, takes nothing back and
consumes only under the family's lock keeps the invariant. -/
theorem Sound.updateTokens (sound : tables.Sound) {condition : TokenRow → Bool}
    {change : TokenRow → TokenRow} (evolves : ∀ row, condition row = true → row.Evolves (change row))
    (named : ∀ row, (change row).id = row.id) (digest : ∀ row, (change row).tokenHash = row.tokenHash)
    (covers : ∀ row ∈ tables.tokens.view session, condition row = true →
      (change row).consumedAt = row.consumedAt ∨ tables.Covers session row.familyId) :
    Sound { tables with tokens := tables.tokens.map (Slot.take session condition change) } where
  familyIds := sound.familyIds
  tokenIds := sound.tokenIds.take named
  digests := sound.digests.take digest
  families := sound.families
  tokens := sound.tokens.take TokenRow.Evolves.trans TokenRow.Evolves.refl evolves
  covered slot member holder version held := by
    obtain ⟨before, inside, rfl⟩ := List.mem_map.mp member
    by_cases meets : before.meets session condition = true
    · obtain ⟨row, sees, holds⟩ := Slot.meets_iff.mp meets
      rw [Slot.take_of_view sees holds] at held ⊢
      obtain ⟨rfl, rfl⟩ := Prod.mk.inj (Option.some.inj held)
      have family := (evolves row holds).familyId
      obtain unconsumed | covers := covers row (LockedTable.mem_view.mpr ⟨before, inside, sees⟩) holds
      · rw [unconsumed, family]
        by_cases owned : before.HeldBy session
        · obtain ⟨version, owned⟩ := owned
          obtain rfl := Option.some.inj ((Slot.view_held owned).symm.trans sees)
          exact sound.covered before inside session version owned
        · exact .inl ⟨row, (Slot.view_free owned).symm.trans sees, rfl⟩
      · exact .inr (family ▸ covers)
    · rw [Slot.take_of_not_meets meets] at held ⊢
      exact sound.covered before inside holder version held
  kept := by
    rw [LockedTable.committed_take]
    exact sound.kept

/-- A family whose identifier is new is inserted. -/
theorem Sound.insertFamily (sound : tables.Sound) {row : FamilyRow} {reply : Unit}
    (runs : tables.run session (.insertFamily row) = some (reply, after)) :
    after.Sound ∧ after.tokens = tables.tokens ∧
      after.families = ⟨none, some (session, row)⟩ :: tables.families := by
  simp only [run, bind, Option.bind_eq_some_iff, pure, Option.some.injEq, Prod.mk.injEq] at runs
  obtain ⟨families, inserted, -, rfl⟩ := runs
  have whole := LockedTable.insert_some inserted
  refine ⟨?_, rfl, whole⟩
  have keyed := sound.familyIds.insert inserted fun version same => decide_eq_true same
  subst whole
  constructor
  · exact keyed
  · exact sound.tokenIds
  · exact sound.digests
  · exact sound.families.cons
  · exact sound.tokens
  · intro slot member holder version held
    obtain unconsumed | ⟨family, ⟨inside, mine⟩, rest⟩ :=
      sound.covered slot member holder version held
    · exact .inl unconsumed
    · exact .inr ⟨family, ⟨List.mem_cons_of_mem _ inside, mine⟩, rest⟩
  · exact sound.kept

/-- A token with a new identifier and a new digest is inserted by the holder of
its family's lock. -/
theorem Sound.insertToken (sound : tables.Sound) {row : TokenRow} {reply : Unit}
    (covers : tables.Covers session row.familyId)
    (runs : tables.run session (.insertToken row) = some (reply, after)) :
    after.Sound ∧ after.families = tables.families ∧
      after.tokens = ⟨none, some (session, row)⟩ :: tables.tokens := by
  rw [run] at runs
  split at runs
  next =>
    simp only [bind, Option.bind_eq_some_iff, pure, Option.some.injEq, Prod.mk.injEq] at runs
    obtain ⟨tokens, inserted, -, rfl⟩ := runs
    have whole := LockedTable.insert_some inserted
    refine ⟨?_, rfl, whole⟩
    have ids := sound.tokenIds.insert inserted fun version same => by simp [same]
    have digests := sound.digests.insert inserted fun version same => by simp [same]
    subst whole
    constructor
    · exact sound.familyIds
    · exact ids
    · exact digests
    · exact sound.families
    · exact sound.tokens.cons
    · intro slot member holder version held
      obtain rfl | inside := List.mem_cons.mp member
      · obtain ⟨rfl, rfl⟩ := Prod.mk.inj (Option.some.inj held)
        exact .inr covers
      · exact sound.covered slot inside holder version held
    · exact sound.kept
  next => cases runs

/-- **Committing what is kept keeps the invariant.** -/
theorem Sound.commit (sound : tables.Sound)
    (kept : FamiliesKept (tables.families.view session) (tables.tokens.view session)) :
    (tables.commit session).Sound where
  familyIds := sound.familyIds.commit
  tokenIds := sound.tokenIds.commit
  digests := sound.digests.commit
  families := sound.families.commit
  tokens := sound.tokens.commit
  covered slot member holder version held := by
    obtain ⟨before, inside, rfl⟩ := List.mem_map.mp member
    by_cases owned : before.HeldBy session
    · obtain ⟨row, owned⟩ := owned
      rw [Slot.commit_held owned] at held
      cases held
    · rw [Slot.commit_free owned] at held ⊢
      refine (sound.covered before inside holder version held).imp_right fun covers => ?_
      refine covers.ended rfl fun slot mine => Slot.commit_free fun ours => owned ?_
      exact ours.same mine ▸ ⟨version, held⟩
  kept := by
    rw [RefreshTables.commit, LockedTable.committed_commit, LockedTable.committed_commit]
    exact kept

theorem Sound.discard (sound : tables.Sound) : (tables.discard session).Sound where
  familyIds := sound.familyIds.discard
  tokenIds := sound.tokenIds.discard
  digests := sound.digests.discard
  families := sound.families.discard
  tokens := sound.tokens.discard
  covered slot member holder version held := by
    obtain ⟨before, inside, rfl⟩ := List.mem_map.mp member
    by_cases owned : before.HeldBy session
    · rw [Slot.discard_held owned] at held
      cases held
    · rw [Slot.discard_free owned] at held ⊢
      refine (sound.covered before inside holder version held).imp_right fun covers => ?_
      refine covers.ended rfl fun slot mine => Slot.discard_free fun ours => owned ?_
      exact ours.same mine ▸ ⟨version, held⟩
  kept := by
    rw [RefreshTables.discard, LockedTable.committed_discard, LockedTable.committed_discard]
    exact sound.kept

/-! ## What a session relies on -/

theorem Sound.families_evolve (sound : tables.Sound) (session : Session) {row : FamilyRow}
    (member : row ∈ tables.families.committed) :
    ∃ later ∈ tables.families.view session, row.Evolves later := by
  obtain ⟨slot, inside, base⟩ := LockedTable.mem_committed.mp member
  obtain ⟨version, sees, evolves⟩ := sound.families.seen FamilyRow.Evolves.refl inside base
  exact ⟨version, LockedTable.mem_view.mpr ⟨slot, inside, sees⟩, evolves⟩

theorem Sound.tokens_evolve (sound : tables.Sound) {row : TokenRow}
    (member : row ∈ tables.tokens.committed) :
    ∃ later ∈ tables.tokens.view session, row.Evolves later := by
  obtain ⟨slot, inside, base⟩ := LockedTable.mem_committed.mp member
  obtain ⟨version, sees, evolves⟩ := sound.tokens.seen TokenRow.Evolves.refl inside base
  exact ⟨version, LockedTable.mem_view.mpr ⟨slot, inside, sees⟩, evolves⟩

/-- A token a session sees is committed, or the session covers its family. -/
theorem Sound.tokens_from (sound : tables.Sound) {later : TokenRow}
    (seen : later ∈ tables.tokens.view session) :
    (∃ row ∈ tables.tokens.committed, row.Evolves later) ∨
      tables.Covers session later.familyId := by
  obtain ⟨slot, ⟨inside, _⟩, held⟩ | ⟨slot, inside, _, base⟩ := LockedTable.mem_view_cases seen
  · refine (sound.covered slot inside session later held).imp_left ?_
    rintro ⟨row, base, _⟩
    exact ⟨row, LockedTable.mem_committed.mpr ⟨slot, inside, base⟩,
      sound.tokens slot inside row base session later held⟩
  · exact .inl ⟨later, LockedTable.mem_committed.mpr ⟨slot, inside, base⟩, .refl later⟩

theorem Sound.rely_commit (sound : tables.Sound) (different : other ≠ session) :
    Rely other tables (tables.commit session) where
  families := LockedTable.mine_commit_other different
  tokens := LockedTable.mine_commit_other different
  familiesEvolve row member := by
    rw [RefreshTables.commit, LockedTable.committed_commit]
    exact sound.families_evolve session member
  tokensEvolve row member := by
    rw [RefreshTables.commit, LockedTable.committed_commit]
    exact sound.tokens_evolve member
  tokensFrom later member := by
    rw [RefreshTables.commit, LockedTable.committed_commit] at member
    refine (sound.tokens_from member).imp_right ?_
    rintro ⟨slot, ⟨inside, mine⟩, version, holds, named, _⟩ own ⟨within, theirs⟩ row held same
    obtain rfl := sound.familyIds.same inside within (Slot.mem_versions.mpr (.inr ⟨_, holds⟩))
      (Slot.mem_versions.mpr (.inr ⟨_, held⟩)) (named.trans same.symm)
    exact different (theirs.same mine)

theorem rely_discard (different : other ≠ session) : Rely other tables (tables.discard session) :=
  .of_committed (LockedTable.mine_discard_other different)
    (LockedTable.mine_discard_other different) LockedTable.committed_discard
    LockedTable.committed_discard

/-! ## What a statement leaves -/

theorem run_leaves (statement : RefreshSql) {reply : statement.Reply}
    (runs : tables.run session statement = some (reply, after)) : Leaves session tables after := by
  cases statement with
  | insertFamily row =>
      simp only [run, bind, Option.bind_eq_some_iff, pure, Option.some.injEq, Prod.mk.injEq] at runs
      obtain ⟨families, inserted, -, rfl⟩ := runs
      obtain rfl := LockedTable.insert_some inserted
      exact ⟨rfl, rfl, fun other different => ⟨LockedTable.mine_cons_other different, rfl⟩⟩
  | insertToken row =>
      rw [run] at runs
      split at runs
      · simp only [bind, Option.bind_eq_some_iff, pure, Option.some.injEq, Prod.mk.injEq] at runs
        obtain ⟨tokens, inserted, -, rfl⟩ := runs
        obtain rfl := LockedTable.insert_some inserted
        exact ⟨rfl, rfl, fun other different => ⟨rfl, LockedTable.mine_cons_other different⟩⟩
      · cases runs
  | locate presented | grantFor presented =>
      obtain ⟨-, rfl⟩ := Prod.mk.inj (Option.some.inj runs)
      exact ⟨rfl, rfl, fun _ _ => ⟨rfl, rfl⟩⟩
  | lockFamily family =>
      simp only [run, bind, Option.bind_eq_some_iff, pure, Option.some.injEq, Prod.mk.injEq,
        Prod.exists] at runs
      obtain ⟨rows, families, locks, -, rfl⟩ := runs
      obtain ⟨free, -, rfl⟩ := LockedTable.lock_some locks
      exact ⟨LockedTable.committed_take, rfl,
        fun other different => ⟨LockedTable.mine_take_other different free, rfl⟩⟩
  | lockToken presented =>
      simp only [run, bind, Option.bind_eq_some_iff, pure, Option.some.injEq, Prod.mk.injEq,
        Prod.exists] at runs
      obtain ⟨rows, tokens, locks, -, rfl⟩ := runs
      obtain ⟨free, -, rfl⟩ := LockedTable.lock_some locks
      exact ⟨rfl, LockedTable.committed_take,
        fun other different => ⟨rfl, LockedTable.mine_take_other different free⟩⟩
  | tombstone family now =>
      simp only [run, bind, Option.bind_eq_some_iff, pure, Option.some.injEq, Prod.mk.injEq,
        Prod.exists] at runs
      obtain ⟨affected, families, updates, -, rfl⟩ := runs
      obtain ⟨free, rfl⟩ := LockedTable.update_some updates
      exact ⟨LockedTable.committed_take, rfl,
        fun other different => ⟨LockedTable.mine_take_other different free, rfl⟩⟩
  | sweep family now | consume token now successor =>
      simp only [run, bind, Option.bind_eq_some_iff, pure, Option.some.injEq, Prod.mk.injEq,
        Prod.exists] at runs
      obtain ⟨affected, tokens, updates, -, rfl⟩ := runs
      obtain ⟨free, rfl⟩ := LockedTable.update_some updates
      exact ⟨rfl, LockedTable.committed_take,
        fun other different => ⟨rfl, LockedTable.mine_take_other different free⟩⟩

end RefreshTables

end Renvor
