import Renvor.Auth.RefreshProtocol

/-! # Outlines of the refresh-token transactions

What holds between the statements of each transaction, in terms of the rows its
session holds and of committed facts that only grow; and so what the tables look
like when the transaction commits (`Renvor.refresh_outlined`).
-/

namespace Renvor

open Foundation
open Foundation.Interleaving (Script Workload Ground Outlining Outlined)

/-- A row locked and left as it is. -/
def locked {Session Row : Type} (session : Session) (row : Row) : Slot Session Row :=
  ⟨some row, some (session, row)⟩

/-- A row locked and changed. -/
def rewritten {Session Row : Type} (session : Session) (base version : Row) : Slot Session Row :=
  ⟨some base, some (session, version)⟩

/-- A row inserted and not committed yet. -/
def inserted {Session Row : Type} (session : Session) (row : Row) : Slot Session Row :=
  ⟨none, some (session, row)⟩

/-- The row of a new family. -/
def NewRefreshFamily.row (family : NewRefreshFamily) : FamilyRow where
  id := family.family
  userId := family.user
  scopes := family.scopes.toClaim
  createdAt := family.createdAt
  expiresAt := family.familyExpiresAt
  revokedAt := none

/-- The row of a new family's first token. -/
def NewRefreshFamily.tokenRow (family : NewRefreshFamily) : TokenRow where
  id := family.firstTokenId
  familyId := family.family
  tokenHash := family.firstToken
  issuedAt := family.createdAt
  expiresAt := family.tokenExpiresAt
  consumedAt := none
  replacedBy := none
  revokedAt := none

/-- The row a rotation writes for the successor. -/
def AdvanceRequest.successorRow (request : AdvanceRequest) (family : FamilyId) : TokenRow where
  id := request.successorId
  familyId := family
  tokenHash := request.successor
  issuedAt := request.now
  expiresAt := request.successorExpiresAt
  consumedAt := none
  replacedBy := none
  revokedAt := none

/-- The presented token as a rotation leaves it. -/
def AdvanceRequest.consumed (request : AdvanceRequest) (token : TokenRow) : TokenRow :=
  { token with consumedAt := some request.now, replacedBy := some request.successorId }

namespace RefreshTables

variable {Session : Type} {tables after start : RefreshTables Session} {session : Session}
  {family : FamilyRow} {token : TokenRow}

/-- The rows a session holds. -/
structure Holding (session : Session) (families : Set (Slot Session FamilyRow))
    (tokens : Set (Slot Session TokenRow)) (tables : RefreshTables Session) : Prop where
  families : tables.families.mine session = families
  tokens : tables.tokens.mine session = tokens

/-- A committed token of the family has the digest. -/
def Knows (presented : SecretDigest) (family : FamilyId) (tables : RefreshTables Session) : Prop :=
  ∃ token ∈ tables.tokens.committed, token.tokenHash = presented ∧ token.familyId = family

/-- Every token committed at the start is committed still. -/
def Since (start tables : RefreshTables Session) : Prop :=
  ∀ token ∈ start.tokens.committed, ∃ later ∈ tables.tokens.committed, token.Evolves later

/-- The session has written nothing. -/
structure Untouched (session : Session) (tables : RefreshTables Session) : Prop where
  families : ∀ slot ∈ tables.families.mine session, ∃ row, slot = locked session row
  tokens : ∀ slot ∈ tables.tokens.mine session, ∃ row, slot = locked session row

theorem Untouched.of_holding {families : Set (Slot Session FamilyRow)}
    {tokens : Set (Slot Session TokenRow)} (holding : Holding session families tokens tables)
    (one : ∀ slot ∈ families, ∃ row, slot = locked session row)
    (two : ∀ slot ∈ tokens, ∃ row, slot = locked session row) : Untouched session tables :=
  ⟨holding.families ▸ one, holding.tokens ▸ two⟩

/-! ## Facts other sessions leave true -/

theorem Idle.rely (idle : Idle session tables) (rely : Rely session tables after) :
    Idle session after :=
  ⟨rely.families.trans idle.1, rely.tokens.trans idle.2⟩

theorem Holding.rely {families : Set (Slot Session FamilyRow)} {tokens : Set (Slot Session TokenRow)}
    (holding : Holding session families tokens tables) (rely : Rely session tables after) :
    Holding session families tokens after :=
  ⟨rely.families.trans holding.families, rely.tokens.trans holding.tokens⟩

theorem Knows.rely {presented : SecretDigest} {named : FamilyId} (knows : Knows presented named tables)
    (rely : Rely session tables after) : Knows presented named after := by
  obtain ⟨token, committed, digest, same⟩ := knows
  obtain ⟨later, member, evolves⟩ := rely.tokensEvolve token committed
  exact ⟨later, member, evolves.tokenHash.trans digest, evolves.familyId.trans same⟩

theorem Since.rely (since : Since start tables) (rely : Rely session tables after) :
    Since start after := by
  intro token member
  obtain ⟨later, committed, evolves⟩ := since token member
  obtain ⟨last, present, again⟩ := rely.tokensEvolve later committed
  exact ⟨last, present, evolves.trans again⟩

variable [DecidableEq Session]

/-- Every token of the family that the session sees is revoked, and it has
written into no other family. -/
structure Swept (session : Session) (named : FamilyId) (tables : RefreshTables Session) : Prop where
  own : ∀ slot ∈ tables.tokens.mine session, ∃ base version,
    slot = rewritten session base version ∧ version.familyId = named
  held : ∀ slot ∈ tables.families.mine session, ∃ base version,
    slot = rewritten session base version ∧ version.id = named ∧ version.revokedAt.isSome = true
  all : (tables.families.mine session).Nonempty → ∀ token ∈ tables.tokens.view session,
    token.familyId = named → token.revokedAt.isSome = true

theorem Swept.rely {named : FamilyId} (swept : Swept session named tables) (sound : after.Sound)
    (rely : Rely session tables after) : Swept session named after where
  own := rely.tokens ▸ swept.own
  held := rely.families ▸ swept.held
  all holds token seen same := by
    have nonempty : (tables.families.mine session).Nonempty := rely.families ▸ holds
    obtain ⟨slot, mine, held⟩ | ⟨slot, member, free, base⟩ := LockedTable.mem_view_cases seen
    · obtain ⟨inside, _⟩ : slot ∈ tables.tokens.mine session := rely.tokens ▸ mine
      exact swept.all nonempty token
        (LockedTable.mem_view.mpr ⟨slot, inside, Slot.view_held held⟩) same
    · have committed := LockedTable.mem_committed.mpr ⟨slot, member, base⟩
      obtain ⟨row, earlier, evolves⟩ | apart := rely.tokensFrom token committed
      · obtain ⟨slot', inside, base'⟩ := LockedTable.mem_committed.mp earlier
        refine evolves.revoked (swept.all nonempty row ?_ (evolves.familyId.symm.trans same))
        refine LockedTable.mem_view.mpr ⟨slot', inside, (Slot.view_free fun held => ?_).trans base'⟩
        -- a row the session holds would be the one of the token, which it does not hold
        obtain ⟨within, _⟩ : slot' ∈ after.tokens.mine session := rely.tokens ▸ ⟨inside, held⟩
        obtain rfl := sound.tokenIds.same member within (Slot.mem_versions.mpr (.inl base))
          (Slot.mem_versions.mpr (.inl base')) evolves.id
        exact free held
      · obtain ⟨slot', mine⟩ := nonempty
        obtain ⟨base', version, rfl, named', _⟩ := swept.held slot' mine
        exact (apart _ mine version rfl (named'.trans same.symm)).elim

/-! ## What a session that wrote nothing, swept, rotated or began a family sees -/

theorem Untouched.families_view (untouched : Untouched session tables) :
    tables.families.view session = tables.families.committed :=
  LockedTable.view_eq_committed untouched.families

theorem Untouched.tokens_view (untouched : Untouched session tables) :
    tables.tokens.view session = tables.tokens.committed :=
  LockedTable.view_eq_committed untouched.tokens

theorem Untouched.kept (untouched : Untouched session tables) (sound : tables.Sound) :
    FamiliesKept (tables.families.view session) (tables.tokens.view session) := by
  rw [untouched.families_view, untouched.tokens_view]
  exact sound.kept

theorem Swept.kept {named : FamilyId} (swept : Swept session named tables) (sound : tables.Sound) :
    FamiliesKept (tables.families.view session) (tables.tokens.view session) := by
  refine sound.kept_view fun slot mine row held => ?_
  obtain ⟨base, version, rfl, rfl, tombstone⟩ := swept.held slot mine
  obtain ⟨-, rfl⟩ := Prod.mk.inj (Option.some.inj held)
  have all := swept.all ⟨_, mine⟩
  constructor
  · intro first among _ _ same _ live _
    have revoked := all first among same
    rw [(TokenRow.live_iff.mp live).2] at revoked
    cases revoked
  · exact fun _ => all

/-- The rows a rotation holds when it is done. -/
def Rotated (session : Session) (request : AdvanceRequest) (family : FamilyRow) (token : TokenRow) :
    RefreshTables Session → Prop :=
  Holding session {locked session family}
    {inserted session (request.successorRow family.id), rewritten session token (request.consumed token)}

theorem Rotated.kept {request : AdvanceRequest}
    (rotated : Rotated session request family token tables) (sound : tables.Sound)
    (same : token.familyId = family.id) (live : token.live = true)
    (unrevoked : family.revokedAt = none) :
    FamiliesKept (tables.families.view session) (tables.tokens.view session) := by
  refine sound.kept_view fun slot mine row held => ?_
  rw [rotated.families, Set.mem_singleton_iff] at mine
  subst mine
  obtain ⟨-, rfl⟩ := Prod.mk.inj (Option.some.inj held)
  -- the successor is the one live token of the family the session sees
  have successor : ∀ other ∈ tables.tokens.view session, other.familyId = family.id →
      other.live = true → other.id = request.successorId := by
    intro other seen equal alive
    obtain ⟨slot, own, holds⟩ | ⟨slot, member, free, base⟩ := LockedTable.mem_view_cases seen
    · rw [rotated.tokens] at own
      obtain rfl | rfl := own
      · obtain ⟨-, rfl⟩ := Prod.mk.inj (Option.some.inj holds)
        rfl
      · obtain ⟨-, rfl⟩ := Prod.mk.inj (Option.some.inj holds)
        cases (TokenRow.live_iff.mp alive).1
    · have inside : rewritten session token (request.consumed token) ∈ tables.tokens.mine session :=
        rotated.tokens ▸ .inr rfl
      have committed : token ∈ tables.tokens.committed :=
        LockedTable.mem_committed.mpr ⟨_, inside.1, rfl⟩
      have present := LockedTable.mem_committed.mpr ⟨slot, member, base⟩
      obtain ⟨home, housed, named⟩ := sound.kept.homed other present
      have one := (sound.kept.each home housed).one other present token committed named.symm
        (same.trans (equal.symm.trans named.symm)) alive live
      obtain rfl := sound.tokenIds.same member inside.1 (Slot.mem_versions.mpr (.inl base))
        (Slot.mem_versions.mpr (.inl rfl)) one
      exact (free inside.2).elim
  constructor
  · intro first among second others equal again alive living
    exact (successor first among equal alive).trans (successor second others again living).symm
  · intro tombstone
    rw [unrevoked] at tombstone
    cases tombstone

/-- The rows a new family's transaction holds when it is done. -/
def Begun (session : Session) (family : FamilyRow) (token : TokenRow) :
    RefreshTables Session → Prop :=
  Holding session {inserted session family} {inserted session token}

theorem Begun.kept (begun : Begun session family token tables) (sound : tables.Sound)
    (unrevoked : family.revokedAt = none) :
    FamiliesKept (tables.families.view session) (tables.tokens.view session) := by
  refine sound.kept_view fun slot mine row held => ?_
  have own : inserted session family ∈ tables.families.mine session := begun.families ▸ rfl
  rw [begun.families, Set.mem_singleton_iff] at mine
  subst mine
  obtain ⟨-, rfl⟩ := Prod.mk.inj (Option.some.inj held)
  have first : ∀ other ∈ tables.tokens.view session, other.familyId = family.id →
      other = token := by
    intro other seen equal
    obtain ⟨slot, own', holds⟩ | ⟨slot, member, free, base⟩ := LockedTable.mem_view_cases seen
    · rw [begun.tokens, Set.mem_singleton_iff] at own'
      subst own'
      exact (Prod.mk.inj (Option.some.inj holds)).2.symm
    · obtain ⟨home, housed, named⟩ :=
        sound.kept.homed other (LockedTable.mem_committed.mpr ⟨slot, member, base⟩)
      obtain ⟨slot', inside, base'⟩ := LockedTable.mem_committed.mp housed
      obtain rfl := sound.familyIds.same own.1 inside (Slot.mem_versions.mpr (.inr ⟨_, held⟩))
        (Slot.mem_versions.mpr (.inl base')) (equal.symm.trans named.symm)
      cases base'
  constructor
  · intro one among two others equal again _ _
    rw [first one among equal, first two others again]
  · intro tombstone
    rw [unrevoked] at tombstone
    cases tombstone

/-! ## The statements -/

/-- What locating a token says: it was not there at the start, or which family
it is of. -/
def Located (presented : SecretDigest) (start tables : RefreshTables Session) :
    Option (List Byte) → Prop
  | none => ∀ token ∈ start.tokens.committed, token.tokenHash ≠ presented
  | some bytes => ∃ named : FamilyId, bytes = named.bytes ∧ Knows presented named tables

theorem locate_reads {presented : SecretDigest} {reply : Option (List Byte)}
    (idle : Idle session tables) (since : Since start tables)
    (runs : tables.run session (.locate presented) = some (reply, after)) :
    after = tables ∧ Located presented start tables reply := by
  have sees : tables.tokens.view session = tables.tokens.committed :=
    LockedTable.view_eq_committed fun slot mine => by
      rw [idle.2] at mine
      cases mine
  simp only [run, sees, Option.some.injEq, Prod.mk.injEq] at runs
  obtain ⟨rfl, rfl⟩ := runs
  refine ⟨rfl, ?_⟩
  cases found : tables.tokens.committed.find? fun row => decide (row.tokenHash = presented) with
  | none =>
      intro token member digest
      obtain ⟨later, committed, evolves⟩ := since token member
      have unequal := List.find?_eq_none.mp found later committed
      exact unequal (decide_eq_true (evolves.tokenHash.trans digest))
  | some row =>
      have digest := List.find?_some found
      exact ⟨row.familyId, rfl, row, List.mem_of_find?_eq_some found, of_decide_eq_true digest, rfl⟩

theorem lockFamily_locks {presented : SecretDigest} {named : FamilyId}
    {reply : Option (Instant × Option Instant)} (sound : tables.Sound) (idle : Idle session tables)
    (knows : Knows presented named tables)
    (runs : tables.run session (.lockFamily named) = some (reply, after)) :
    after.Sound ∧ Knows presented named after ∧ ∃ family ∈ after.families.committed,
      family.id = named ∧ reply = some (family.expiresAt, family.revokedAt) ∧
        Holding session {locked session family} ∅ after := by
  obtain ⟨token, committed, digest, rfl⟩ := knows
  obtain ⟨family, housed, same⟩ := sound.kept.homed token committed
  rw [← same] at runs ⊢
  simp only [run, bind, Option.bind_eq_some_iff, pure, Option.some.injEq, Prod.mk.injEq,
    Prod.exists] at runs
  obtain ⟨rows, families, locks, rfl, rfl⟩ := runs
  obtain ⟨head, mine⟩ := LockedTable.lock_key sound.familyIds idle.1 housed locks
  obtain ⟨free, -, rfl⟩ := LockedTable.lock_some locks
  refine ⟨sound.updateFamilies free (fun row _ => .refl row) fun _ => rfl,
    ⟨token, committed, digest, same.symm⟩, family, ?_, rfl, by rw [head]; rfl, mine, idle.2⟩
  rw [LockedTable.committed_take]
  exact housed

theorem lockToken_locks {presented : SecretDigest} {named : FamilyId}
    {families : Set (Slot Session FamilyRow)}
    {reply : Option (RefreshTokenId × Instant × Option Instant × Option Instant)}
    (sound : tables.Sound) (holding : Holding session families ∅ tables)
    (knows : Knows presented named tables)
    (runs : tables.run session (.lockToken presented) = some (reply, after)) :
    after.Sound ∧ ∃ token, token.tokenHash = presented ∧ token.familyId = named ∧
      reply = some (token.id, token.expiresAt, token.consumedAt, token.revokedAt) ∧
        Holding session families {locked session token} after := by
  obtain ⟨token, committed, rfl, rfl⟩ := knows
  simp only [run, bind, Option.bind_eq_some_iff, pure, Option.some.injEq, Prod.mk.injEq,
    Prod.exists] at runs
  obtain ⟨rows, tokens, locks, rfl, rfl⟩ := runs
  obtain ⟨head, mine⟩ := LockedTable.lock_key sound.digests holding.tokens committed locks
  obtain ⟨free, -, rfl⟩ := LockedTable.lock_some locks
  exact ⟨sound.updateTokens (fun row _ => .refl row) (fun _ => rfl) (fun _ => rfl)
    fun _ _ _ => .inl rfl, token, rfl, rfl, by rw [head]; rfl, holding.families, mine⟩

/-- A tombstone leaves every family the session holds with one, and what it had
locked before with its own. -/
theorem tombstone_marks {named : FamilyId} {now : Instant} {affected : Nat} (sound : tables.Sound)
    (nothing : ∀ slot ∈ tables.families.mine session, ∃ row, slot = locked session row ∧
      row.id = named ∧ row.revokedAt = none)
    (runs : tables.run session (.tombstone named now) = some (affected, after)) :
    after.Sound ∧ after.tokens = tables.tokens ∧
      (∀ slot ∈ after.families.mine session, ∃ row, row.id = named ∧
        slot = rewritten session row { row with revokedAt := some now }) ∧
      ∀ row, tables.families.mine session = {locked session row} →
        after.families.mine session = {rewritten session row { row with revokedAt := some now }} := by
  simp only [run, bind, Option.bind_eq_some_iff, pure, Option.some.injEq, Prod.mk.injEq,
    Prod.exists] at runs
  obtain ⟨rows, families, updates, rfl, rfl⟩ := runs
  obtain ⟨free, rfl⟩ := LockedTable.update_some updates
  have marks : ∀ slot ∈ LockedTable.mine session (tables.families.map (Slot.take session
      (fun row => decide (row.id = named) && row.revokedAt.isNone)
      fun row => { row with revokedAt := some now })), ∃ row, row.id = named ∧
        slot = rewritten session row { row with revokedAt := some now } := by
    intro slot mine
    rw [LockedTable.mine_take] at mine
    obtain ⟨before, ⟨member, either⟩, rfl⟩ := mine
    have base : ∃ row, before.view session = some row ∧ before.committed = some row ∧
        row.id = named ∧ row.revokedAt = none := by
      by_cases held : before.HeldBy session
      · obtain ⟨row, rfl, same, unrevoked⟩ := nothing before ⟨member, held⟩
        exact ⟨row, Slot.view_held rfl, rfl, same, unrevoked⟩
      · obtain ⟨row, seen, meets⟩ := Slot.meets_iff.mp (either.resolve_right held)
        simp only [Bool.and_eq_true, decide_eq_true_eq, Option.isNone_iff_eq_none] at meets
        exact ⟨row, seen, (Slot.view_free held).symm.trans seen, meets.1, meets.2⟩
    obtain ⟨row, seen, committed, same, unrevoked⟩ := base
    refine ⟨row, same, ?_⟩
    rw [Slot.take_of_view seen (by simp [same, unrevoked]), committed]
    rfl
  refine ⟨sound.updateFamilies free (fun row meets => ?_) fun _ => rfl, rfl, marks, ?_⟩
  · simp only [Bool.and_eq_true, Option.isNone_iff_eq_none] at meets
    exact .revoke meets.2 now
  · intro row mine
    have inside : locked session row ∈ tables.families.mine session := mine ▸ rfl
    obtain ⟨other, same, named', unrevoked⟩ := nothing _ inside
    obtain rfl := Option.some.inj (congrArg Slot.committed same)
    have seen : (locked session row).view session = some row := Slot.view_held rfl
    rw [LockedTable.mine_take_one inside.1 (.inr inside.2),
      Slot.take_of_view seen (by simp [named', unrevoked])]
    · rfl
    · rintro slot member (meets | held)
      · obtain ⟨version, sees, meets⟩ := Slot.meets_iff.mp meets
        simp only [Bool.and_eq_true, decide_eq_true_eq] at meets
        exact sound.familyIds.same member inside.1 (Slot.view_mem_versions sees)
          (Slot.view_mem_versions seen) (meets.1.trans named'.symm)
      · have own : slot ∈ tables.families.mine session := ⟨member, held⟩
        rwa [mine] at own

/-- After the sweep no token of the family that the session sees is unrevoked. -/
theorem sweep_sweeps {named : FamilyId} {now : Instant} {affected : Nat} (sound : tables.Sound)
    (own : ∀ slot ∈ tables.tokens.mine session, ∃ row, slot = locked session row ∧
      row.familyId = named)
    (held : ∀ slot ∈ tables.families.mine session, ∃ base version,
      slot = rewritten session base version ∧ version.id = named ∧ version.revokedAt.isSome = true)
    (runs : tables.run session (.sweep named now) = some (affected, after)) :
    after.Sound ∧ after.families = tables.families ∧ Swept session named after := by
  simp only [run, bind, Option.bind_eq_some_iff, pure, Option.some.injEq, Prod.mk.injEq,
    Prod.exists] at runs
  obtain ⟨rows, tokens, updates, rfl, rfl⟩ := runs
  obtain ⟨free, rfl⟩ := LockedTable.update_some updates
  refine ⟨sound.updateTokens (fun row meets => ?_) (fun _ => rfl) (fun _ => rfl)
    fun _ _ _ => .inl rfl, rfl, ?_, held, ?_⟩
  · simp only [Bool.and_eq_true, Option.isNone_iff_eq_none] at meets
    exact .revoke meets.2 now
  · intro slot mine
    rw [LockedTable.mine_take] at mine
    obtain ⟨before, ⟨member, either⟩, rfl⟩ := mine
    have base : ∃ row, before.view session = some row ∧ before.committed = some row ∧
        row.familyId = named := by
      by_cases held : before.HeldBy session
      · obtain ⟨row, rfl, same⟩ := own before ⟨member, held⟩
        exact ⟨row, Slot.view_held rfl, rfl, same⟩
      · obtain ⟨row, seen, meets⟩ := Slot.meets_iff.mp (either.resolve_right held)
        simp only [Bool.and_eq_true, decide_eq_true_eq] at meets
        exact ⟨row, seen, (Slot.view_free held).symm.trans seen, meets.1⟩
    obtain ⟨row, seen, committed, same⟩ := base
    by_cases meets : before.meets session
        (fun row => decide (row.familyId = named) && row.revokedAt.isNone) = true
    · obtain ⟨version, sees, meets⟩ := Slot.meets_iff.mp meets
      obtain rfl := Option.some.inj (seen.symm.trans sees)
      rw [Slot.take_of_view seen meets, committed]
      exact ⟨row, _, rfl, same⟩
    · obtain ⟨row, rfl, same⟩ := own before ⟨member, either.resolve_left meets⟩
      rw [Slot.take_of_not_meets meets]
      exact ⟨row, row, rfl, same⟩
  · intro _ token seen same
    obtain ⟨slot, member, sees⟩ := LockedTable.mem_view.mp seen
    obtain ⟨before, _, rfl⟩ := List.mem_map.mp member
    by_cases meets : before.meets session
        (fun row => decide (row.familyId = named) && row.revokedAt.isNone) = true
    · obtain ⟨version, old, meets⟩ := Slot.meets_iff.mp meets
      rw [Slot.take_of_view old meets, Slot.view_held rfl] at sees
      cases sees
      rfl
    · rw [Slot.take_of_not_meets meets] at sees
      cases unrevoked : token.revokedAt with
      | some instant => rfl
      | none => exact (meets (Slot.meets_iff.mpr ⟨token, sees, by simp [same, unrevoked]⟩)).elim

theorem consume_consumes {request : AdvanceRequest} {affected : Nat} (sound : tables.Sound)
    (holding : Holding session {locked session family} {locked session token} tables)
    (same : token.familyId = family.id) (unrevoked : family.revokedAt = none)
    (live : token.live = true)
    (runs : tables.run session (.consume token.id request.now request.successorId) =
      some (affected, after)) :
    after.Sound ∧ Holding session {locked session family}
      {rewritten session token (request.consumed token)} after := by
  simp only [run, bind, Option.bind_eq_some_iff, pure, Option.some.injEq, Prod.mk.injEq,
    Prod.exists] at runs
  obtain ⟨rows, tokens, updates, rfl, rfl⟩ := runs
  obtain ⟨free, rfl⟩ := LockedTable.update_some updates
  have inside : locked session token ∈ tables.tokens.mine session := holding.tokens ▸ rfl
  have houses : locked session family ∈ tables.families.mine session := holding.families ▸ rfl
  have seen : (locked session token).view session = some token := Slot.view_held rfl
  have unconsumed := (TokenRow.live_iff.mp live).1
  refine ⟨sound.updateTokens (fun row meets => ?_) (fun _ => rfl) (fun _ => rfl) ?_,
    holding.families, ?_⟩
  · simp only [Bool.and_eq_true, Option.isNone_iff_eq_none] at meets
    exact .consume meets.2 request.now request.successorId
  · intro row sees meets
    obtain ⟨slot, member, sees⟩ := LockedTable.mem_view.mp sees
    simp only [Bool.and_eq_true, decide_eq_true_eq] at meets
    obtain rfl := sound.tokenIds.same member inside.1 (Slot.view_mem_versions sees)
      (Slot.view_mem_versions seen) meets.1
    obtain rfl := Option.some.inj (seen.symm.trans sees)
    refine .inr ⟨locked session family, houses, family, rfl, same.symm, ?_⟩
    rintro base ⟨⟩
    exact unrevoked
  · rw [LockedTable.mine_take_one inside.1 (.inr inside.2),
      Slot.take_of_view seen (by simp [unconsumed])]
    · rfl
    · rintro slot member (meets | held)
      · obtain ⟨version, sees, meets⟩ := Slot.meets_iff.mp meets
        simp only [Bool.and_eq_true, decide_eq_true_eq] at meets
        exact sound.tokenIds.same member inside.1 (Slot.view_mem_versions sees)
          (Slot.view_mem_versions seen) meets.1
      · have own : slot ∈ tables.tokens.mine session := ⟨member, held⟩
        rwa [holding.tokens] at own

theorem insertSuccessor_inserts {request : AdvanceRequest} {reply : Unit} (sound : tables.Sound)
    (holding : Holding session {locked session family}
      {rewritten session token (request.consumed token)} tables)
    (unrevoked : family.revokedAt = none)
    (runs : tables.run session (.insertToken (request.successorRow family.id)) =
      some (reply, after)) :
    after.Sound ∧ Rotated session request family token after := by
  have houses : locked session family ∈ tables.families.mine session := holding.families ▸ rfl
  obtain ⟨kept, families, tokens⟩ := sound.insertToken
    ⟨locked session family, houses, family, rfl, rfl, by rintro base ⟨⟩; exact unrevoked⟩ runs
  refine ⟨kept, families ▸ holding.families, ?_⟩
  rw [tokens, LockedTable.mine_cons, holding.tokens]
  rfl

/-! ## The transactions -/

/-- What the session of a transition holds when it is done, and what it has
seen. -/
def Transitioned (session : Session) (request : AdvanceRequest)
    (start tables : RefreshTables Session) : RefreshTransition → Prop
  | .advanced => ∃ family token, Rotated session request family token tables ∧
      family.revokedAt = none ∧ request.now < family.expiresAt ∧
      token.tokenHash = request.presented ∧ token.familyId = family.id ∧ token.live = true
  | .replayed _ => ∃ family, Knows request.presented family.id tables ∧
      Swept session family.id tables ∧ tables.families.mine session =
        {rewritten session family { family with revokedAt := some request.now }}
  | .familyRevoked => ∃ family, Knows request.presented family.id tables ∧
      family.revokedAt.isSome = true ∧ Holding session {locked session family} ∅ tables
  | .unusable =>
      (Idle session tables ∧ ∀ token ∈ start.tokens.committed,
        token.tokenHash ≠ request.presented) ∨
      (∃ family, Knows request.presented family.id tables ∧ family.expiresAt ≤ request.now ∧
        Holding session {locked session family} ∅ tables) ∨
      ∃ family token, token.tokenHash = request.presented ∧ token.live = true ∧
        Holding session {locked session family} {locked session token} tables

/-- What holds when a call's transaction is done. -/
structure Ends (session : Session) (call : RefreshCall) (start : RefreshTables Session)
    (answer : RefreshAnswer) (tables : RefreshTables Session) : Prop where
  kept : FamiliesKept (tables.families.view session) (tables.tokens.view session)
  transition : ∀ request transition, call = .advance request → answer = .transition transition →
    Transitioned session request start tables transition

/-- The refresh-token tables' invariant and what their sessions rely on. -/
def ground (Session : Type) : Interleaving.Ground Session (RefreshTables Session) where
  invariant := Sound
  rely := Rely

/-- What the transactions of the refresh-token store end with. -/
def outlining (Session : Type) [DecidableEq Session] :
    Outlining Session (RefreshTables Session) RefreshCall RefreshAnswer where
  toGround := ground Session
  idle := Idle
  ends := Ends

/-- A done transition leaves what the session sees kept. -/
theorem Transitioned.kept {request : AdvanceRequest} {transition : RefreshTransition}
    (done : Transitioned session request start tables transition) (sound : tables.Sound) :
    FamiliesKept (tables.families.view session) (tables.tokens.view session) := by
  have single : ∀ {Row : Type} {row : Row} (slot : Slot Session Row), slot ∈ ({locked session row} :
      Set (Slot Session Row)) → ∃ row, slot = locked session row := fun _ member => ⟨_, member⟩
  have none : ∀ {Row : Type} (slot : Slot Session Row), slot ∈ (∅ : Set (Slot Session Row)) →
      ∃ row, slot = locked session row := fun _ member => member.elim
  cases transition with
  | advanced =>
      obtain ⟨family, token, rotated, unrevoked, _, _, same, live⟩ := done
      exact rotated.kept sound same live unrevoked
  | replayed revoked =>
      obtain ⟨family, _, swept, _⟩ := done
      exact swept.kept sound
  | familyRevoked =>
      obtain ⟨family, _, _, holding⟩ := done
      exact (Untouched.of_holding holding single none).kept sound
  | unusable =>
      obtain ⟨idle, _⟩ | ⟨family, _, _, holding⟩ | ⟨family, token, _, _, holding⟩ := done
      · exact (Untouched.of_holding ⟨idle.1, idle.2⟩ none none).kept sound
      · exact (Untouched.of_holding holding single none).kept sound
      · exact (Untouched.of_holding holding single single).kept sound

end RefreshTables

namespace SqlxRefreshTokenRepository

open RefreshTables

variable {Session : Type} [DecidableEq Session] {session : Session}
  {start : RefreshTables Session} {request : AdvanceRequest}

/-- The transition's postcondition. -/
abbrev Post (session : Session) (request : AdvanceRequest) (start : RefreshTables Session)
    (transition : RefreshTransition) (tables : RefreshTables Session) : Prop :=
  Transitioned session request start tables transition

theorem respond_outline {family : FamilyRow} {token : TokenRow} (same : token.familyId = family.id)
    (unrevoked : family.revokedAt = none) :
    (ground Session).Outline (refreshEngine Session) session (Post session request start)
      (respond request family.id) fun tables => Knows request.presented family.id tables ∧
        Holding session {locked session family} {locked session token} tables := by
  refine Ground.Outline.ask (fun _ tables => Knows request.presented family.id tables ∧
      Holding session {rewritten session family { family with revokedAt := some request.now }}
        {locked session token} tables) ?_ ?_ fun _ => ?_
  · intro tables reply after sound ⟨knows, holding⟩ runs
    have leaves := run_leaves (.tombstone family.id request.now) runs
    obtain ⟨kept, tokens, _, marked⟩ := tombstone_marks sound (fun slot mine => by
      rw [holding.families] at mine
      exact ⟨family, mine, rfl, unrevoked⟩) runs
    refine ⟨kept, ?_, marked family holding.families, tokens ▸ holding.tokens⟩
    rw [Knows, leaves.tokens]
    exact knows
  · rintro _ before after _ _ ⟨knows, holding⟩ rely
    exact ⟨knows.rely rely, holding.rely rely⟩
  refine Ground.Outline.ask (fun _ tables => Knows request.presented family.id tables ∧
      Swept session family.id tables ∧ tables.families.mine session =
        {rewritten session family { family with revokedAt := some request.now }}) ?_ ?_ fun _ => ?_
  · intro tables reply after sound ⟨knows, holding⟩ runs
    have leaves := run_leaves (.sweep family.id request.now) runs
    obtain ⟨kept, families, swept⟩ := sweep_sweeps sound (fun slot mine => by
      rw [holding.tokens] at mine
      exact ⟨token, mine, same⟩) (fun slot mine => by
      rw [holding.families] at mine
      exact ⟨family, _, mine, rfl, rfl⟩) runs
    refine ⟨kept, ?_, swept, families ▸ holding.families⟩
    rw [Knows, leaves.tokens]
    exact knows
  · rintro _ before after _ sound ⟨knows, swept, mine⟩ rely
    exact ⟨knows.rely rely, swept.rely sound rely, rely.families.trans mine⟩
  · rintro tables _ ⟨knows, swept, mine⟩
    exact ⟨family, knows, swept, mine⟩

theorem succeed_outline {family : FamilyRow} {token : TokenRow} (same : token.familyId = family.id)
    (unrevoked : family.revokedAt = none) (unexpired : request.now < family.expiresAt)
    (digest : token.tokenHash = request.presented) (live : token.live = true) :
    (ground Session).Outline (refreshEngine Session) session (Post session request start)
      (succeed request family.id token.id)
      (Holding session {locked session family} {locked session token}) := by
  refine Ground.Outline.ask (fun _ => Holding session {locked session family}
    {rewritten session token (request.consumed token)}) ?_ ?_ fun affected => ?_
  · intro tables reply after sound holding runs
    exact consume_consumes sound holding same unrevoked live runs
  · exact fun _ before after _ _ holding rely => holding.rely rely
  split
  · trivial
  · refine Ground.Outline.ask (fun _ => Rotated session request family token) ?_ ?_ fun _ => ?_
    · intro tables reply after sound holding runs
      exact insertSuccessor_inserts sound holding unrevoked runs
    · exact fun _ before after _ _ holding rely => holding.rely rely
    · intro tables _ rotated
      exact ⟨family, token, rotated, unrevoked, unexpired, digest, same, live⟩

/-- From the family's lock on. -/
private theorem lockToken_outline {family : FamilyRow} (unrevoked : family.revokedAt = none)
    (unexpired : request.now < family.expiresAt) :
    (ground Session).Outline (refreshEngine Session) session (Post session request start) (do
      match ← execute (.lockToken request.presented) with
      | none => return .unusable
      | some (tokenId, tokenExpiresAt, consumedAt, revokedAt) =>
        if consumedAt.isSome || revokedAt.isSome then respond request family.id
        else if tokenExpiresAt ≤ request.now then return .unusable
        else succeed request family.id tokenId)
      fun tables => Knows request.presented family.id tables ∧
        Holding session {locked session family} ∅ tables := by
  refine Ground.Outline.ask (fun reply tables => ∃ token : TokenRow, ∃ _ : token.tokenHash =
    request.presented ∧ token.familyId = family.id ∧ reply = some (token.id, token.expiresAt,
      token.consumedAt, token.revokedAt), Knows request.presented family.id tables ∧
      Holding session {locked session family} {locked session token} tables) ?_ ?_ fun reply => ?_
  · intro tables reply after sound ⟨knows, holding⟩ runs
    have leaves := run_leaves (.lockToken request.presented) runs
    obtain ⟨kept, token, digest, same, answers, holds⟩ := lockToken_locks sound holding knows runs
    refine ⟨kept, token, ⟨digest, same, answers⟩, ?_, holds⟩
    rw [Knows, leaves.tokens]
    exact knows
  · rintro reply before after _ _ ⟨token, facts, knows, holding⟩ rely
    exact ⟨token, facts, knows.rely rely, holding.rely rely⟩
  refine Ground.Outline.choose fun token => Ground.Outline.choose fun facts => ?_
  obtain ⟨digest, same, rfl⟩ := facts
  dsimp only
  split
  · exact respond_outline same unrevoked
  next live =>
    simp only [Bool.or_eq_true, not_or, Bool.not_eq_true, Option.isSome_eq_false_iff,
      Option.isNone_iff_eq_none] at live
    split
    · intro tables _ ⟨_, holding⟩
      exact .inr (.inr ⟨family, token, digest, TokenRow.live_iff.mpr live, holding⟩)
    · exact (succeed_outline same unrevoked unexpired digest (TokenRow.live_iff.mpr live)).weaken
        fun _ _ holds => holds.2

/-- From the located family on. -/
private theorem lockFamily_outline (named : FamilyId) :
    (ground Session).Outline (refreshEngine Session) session (Post session request start) (do
      match ← execute (.lockFamily named) with
      | none => return .unusable
      | some (familyExpiresAt, familyRevokedAt) =>
        if familyRevokedAt.isSome then return .familyRevoked
        else if familyExpiresAt ≤ request.now then return .unusable
        else
          match ← execute (.lockToken request.presented) with
          | none => return .unusable
          | some (tokenId, tokenExpiresAt, consumedAt, revokedAt) =>
            if consumedAt.isSome || revokedAt.isSome then respond request named
            else if tokenExpiresAt ≤ request.now then return .unusable
            else succeed request named tokenId)
      fun tables => Idle session tables ∧ Knows request.presented named tables := by
  refine Ground.Outline.ask (fun reply tables => ∃ family : FamilyRow, ∃ _ : family.id = named ∧
    reply = some (family.expiresAt, family.revokedAt), Knows request.presented family.id tables ∧
      Holding session {locked session family} ∅ tables) ?_ ?_ fun reply => ?_
  · intro tables reply after sound ⟨idle, knows⟩ runs
    obtain ⟨kept, knows, family, _, rfl, answers, holding⟩ :=
      lockFamily_locks sound idle knows runs
    exact ⟨kept, family, ⟨rfl, answers⟩, knows, holding⟩
  · rintro reply before after _ _ ⟨family, facts, knows, holding⟩ rely
    exact ⟨family, facts, knows.rely rely, holding.rely rely⟩
  refine Ground.Outline.choose fun family => Ground.Outline.choose fun facts => ?_
  obtain ⟨rfl, rfl⟩ := facts
  dsimp only
  split
  next tombstone =>
    intro tables _ ⟨knows, holding⟩
    exact ⟨family, knows, tombstone, holding⟩
  next unrevoked =>
    simp only [Bool.not_eq_true, Option.isSome_eq_false_iff, Option.isNone_iff_eq_none] at unrevoked
    split
    next expired =>
      intro tables _ ⟨knows, holding⟩
      exact .inr (.inl ⟨family, knows, expired, holding⟩)
    next unexpired => exact lockToken_outline unrevoked (not_le.mp unexpired)

theorem decide_outline : (ground Session).Outline (refreshEngine Session) session
    (Post session request start) (decide request)
    fun tables => Idle session tables ∧ Since start tables := by
  refine Ground.Outline.ask (fun located tables => Idle session tables ∧
    Located request.presented start tables located) ?_ ?_ fun located => ?_
  · intro tables reply after sound ⟨idle, since⟩ runs
    obtain ⟨rfl, located⟩ := locate_reads idle since runs
    exact ⟨sound, idle, located⟩
  · rintro located before after _ _ ⟨idle, knows⟩ rely
    refine ⟨⟨rely.families.trans idle.1, rely.tokens.trans idle.2⟩, ?_⟩
    cases located with
    | none => exact knows
    | some bytes =>
        obtain ⟨named, whole, knows⟩ := knows
        exact ⟨named, whole, knows.rely rely⟩
  cases located with
  | none => exact fun tables _ ⟨idle, unknown⟩ => .inl ⟨idle, unknown⟩
  | some bytes =>
      have reads : (ground Session).Outline (refreshEngine Session) session
          (fun family tables => Idle session tables ∧ Knows request.presented family tables)
          (Script.ofExcept (familyIdFrom bytes)) fun tables =>
            Idle session tables ∧ Located request.presented start tables (some bytes) := by
        cases read : familyIdFrom bytes with
        | error error => trivial
        | ok family =>
            rintro tables _ ⟨idle, named, whole, knows⟩
            obtain rfl := Sixteen.bytes_inj.mp (whole.symm.trans (sixteenFrom_ok read).symm)
            exact ⟨idle, knows⟩
      exact reads.bind fun family => lockFamily_outline family

theorem writeFamily_outline (family : NewRefreshFamily) :
    (ground Session).Outline (refreshEngine Session) session
      (fun _ => Begun session family.row family.tokenRow) (writeFamily family) (Idle session) := by
  refine Ground.Outline.ask (fun _ => Holding session {inserted session family.row} ∅) ?_ ?_
    fun _ => ?_
  · intro tables reply after sound idle runs
    obtain ⟨kept, tokens, families⟩ := sound.insertFamily runs
    refine ⟨kept, ?_, tokens ▸ idle.2⟩
    rw [families, LockedTable.mine_cons, idle.1]
    exact insert_empty_eq _
  · exact fun _ before after _ _ holding rely => holding.rely rely
  show (ground Session).Outline (refreshEngine Session) session _
    (.query (.insertToken family.tokenRow) .done) _
  intro tables reply after sound holding runs
  have own : inserted session family.row ∈ tables.families.mine session := holding.families ▸ rfl
  obtain ⟨kept, families, tokens⟩ := sound.insertToken
    ⟨_, own, family.row, rfl, rfl, by rintro base ⟨⟩⟩ runs
  refine ⟨kept, Begun session family.row family.tokenRow, ?_, ⟨families ▸ holding.families, ?_⟩,
    fun _ _ begun => begun⟩
  · exact fun before after _ _ begun rely => begun.rely rely
  · rw [tokens, LockedTable.mine_cons, holding.tokens]
    exact insert_empty_eq _

theorem revokeWithin_outline (named : FamilyId) (now : Instant) :
    (ground Session).Outline (refreshEngine Session) session
      (fun _ => Swept session named) (revokeWithin named now) (Idle session) := by
  refine Ground.Outline.ask (fun _ tables => tables.tokens.mine session = ∅ ∧
    ∀ slot ∈ tables.families.mine session, ∃ row, row.id = named ∧
      slot = rewritten session row { row with revokedAt := some now }) ?_ ?_ fun _ => ?_
  · intro tables reply after sound idle runs
    obtain ⟨kept, tokens, marks, _⟩ := tombstone_marks sound (fun slot mine => by
      rw [idle.1] at mine
      cases mine) runs
    exact ⟨kept, tokens ▸ idle.2, marks⟩
  · rintro _ before after _ _ ⟨nothing, marks⟩ rely
    exact ⟨rely.tokens.trans nothing, rely.families ▸ marks⟩
  show (ground Session).Outline (refreshEngine Session) session _
    (.query (.sweep named now) .done) _
  rintro tables reply after sound ⟨nothing, marks⟩ runs
  obtain ⟨kept, _, swept⟩ := sweep_sweeps sound (fun slot mine => by
    rw [nothing] at mine
    cases mine) (fun slot mine => by
    obtain ⟨row, same, rfl⟩ := marks slot mine
    exact ⟨row, _, rfl, same, rfl⟩) runs
  exact ⟨kept, Swept session named, fun before after _ sound swept rely => swept.rely sound rely,
    swept, fun _ _ swept => swept⟩

end SqlxRefreshTokenRepository

open RefreshTables SqlxRefreshTokenRepository

/-- Workloads of the store's statements whose bodies have outlines, and end with
what they see kept, are outlined. -/
theorem RefreshTables.outlined {Session : Type} [DecidableEq Session] {Call Error Answer : Type}
    {workload : Workload Session (RefreshTables Session) RefreshSql RefreshSql.Reply Call Error
      Answer}
    {ends : Session → Call → RefreshTables Session → Answer → RefreshTables Session → Prop}
    (engine : workload.toEngine = refreshEngine Session) (empty : workload.empty = ⟨[], []⟩)
    (kept : ∀ session call start answer tables, ends session call start answer tables →
      FamiliesKept (tables.families.view session) (tables.tokens.view session))
    (body : ∀ session call start, Sound start → Idle session start →
      ∃ pre, (ground Session).Stable session pre ∧ pre start ∧
        (ground Session).Outline (refreshEngine Session) session (ends session call start)
          (workload.body call) pre) :
    Outlined workload { toGround := ground Session, idle := Idle, ends } := by
  obtain ⟨_, bodies, _⟩ := workload
  cases engine
  cases empty
  constructor
  · refine ⟨⟨.nil, .nil, .nil, ?_, ?_, ?_, ⟨?_, ?_⟩⟩, fun session => ⟨?_, ?_⟩⟩
    · rintro _ ⟨⟩
    · rintro _ ⟨⟩
    · rintro _ ⟨⟩
    · rintro _ ⟨⟩
    · rintro _ ⟨⟩
    · exact Set.eq_empty_of_forall_notMem fun slot mine => by cases mine.1
    · exact Set.eq_empty_of_forall_notMem fun slot mine => by cases mine.1
  · exact fun session tables => .of_committed rfl rfl rfl rfl
  · exact fun session before after _ _ idle rely => Idle.rely idle rely
  · exact body
  · intro session other statement before reply after different _ runs
    exact (run_leaves statement runs).rely different
  · intro session call start answer tables sound done
    exact ⟨sound.commit (kept session call start answer tables done),
      ⟨LockedTable.mine_commit, LockedTable.mine_commit⟩,
      fun other different => sound.rely_commit different⟩
  · intro session tables sound
    exact ⟨sound.discard, ⟨LockedTable.mine_discard, LockedTable.mine_discard⟩,
      fun other different => rely_discard different⟩

/-- **Every call of the refresh-token store has an outline.** -/
theorem refresh_outlined (Session : Type) [DecidableEq Session] :
    Outlined (refreshWorkload Session) (outlining Session) := by
  refine RefreshTables.outlined rfl rfl (fun _ _ _ _ _ ends => ends.kept) ?_
  intro session call start _ idle
  cases call with
  | beginFamily family =>
      refine ⟨Idle session, ?_, idle, (writeFamily_outline family).bind fun _ => ?_⟩
      · exact fun before after _ _ idle rely => idle.rely rely
      · intro tables sound begun
        exact ⟨begun.kept sound rfl, by rintro _ _ ⟨⟩⟩
  | advance request =>
      refine ⟨fun tables => Idle session tables ∧ Since start tables, ?_,
        ⟨idle, fun token member => ⟨token, member, .refl token⟩⟩, decide_outline.bind fun _ => ?_⟩
      · intro before after _ _ holds rely
        exact ⟨holds.1.rely rely, holds.2.rely rely⟩
      · intro tables sound done
        refine ⟨done.kept sound, ?_⟩
        rintro _ _ ⟨⟩ ⟨⟩
        exact done
  | revokeFamily named now =>
      refine ⟨Idle session, ?_, idle, (revokeWithin_outline named now).bind fun _ => ?_⟩
      · exact fun before after _ _ idle rely => idle.rely rely
      · intro tables sound swept
        exact ⟨swept.kept sound, by rintro _ _ ⟨⟩⟩

end Renvor
