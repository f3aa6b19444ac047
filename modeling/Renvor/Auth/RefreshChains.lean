import Renvor.Auth.RefreshRotation

/-! # Chains of rotations

A login fixes the user, the scopes and the absolute end of a family. Every pair
a chain of rotations issues carries that user and those scopes, and no refresh
token of the family expires after that end, however the calls interleave
(`Renvor.chains_bounded`).
-/

namespace Renvor

open Foundation
open Foundation.Interleaving (Script Event World Ground Outlining Outlined)

/-- The grant a family's row gives. -/
structure RefreshGrant.Reads (grant : RefreshGrant) (family : FamilyRow) : Prop where
  id : grant.family = family.id
  user : grant.user = family.userId
  scopes : ScopeSet.parseClaim family.scopes = .ok grant.scopes
  familyExpiresAt : grant.familyExpiresAt = family.expiresAt

/-- Every token ends no later than its family. -/
def Bounded (families : List FamilyRow) (tokens : List TokenRow) : Prop :=
  ∀ token ∈ tokens, ∃ family ∈ families, family.id = token.familyId ∧
    token.expiresAt ≤ family.expiresAt

/-- A pair names its family's user and carries its scopes. -/
structure RotatedTokens.Carries (tokens : RotatedTokens) (family : FamilyRow) : Prop where
  id : tokens.family = family.id
  subject : tokens.access.claims.sub = family.userId.hex
  scopes : ∃ scopes, ScopeSet.parseClaim family.scopes = .ok scopes ∧
    tokens.access.claims.scope = scopes.toClaim

/-- The pair carries the family's grant, and its refresh token is the family's. -/
structure RotatedTokens.IssuedFor (tokens : RotatedTokens) (hash : Sha256) (family : FamilyRow)
    (families : List FamilyRow) (rows : List TokenRow) : Prop where
  member : family ∈ families
  carries : tokens.Carries family
  refresh : ∃ row ∈ rows, row.tokenHash = .of hash tokens.refresh ∧ row.familyId = family.id

theorem RefreshGrant.Reads.evolves {grant : RefreshGrant} {family later : FamilyRow}
    (reads : grant.Reads family) (evolves : family.Evolves later) : grant.Reads later where
  id := reads.id.trans evolves.id.symm
  user := reads.user.trans evolves.userId.symm
  scopes := evolves.scopes.symm ▸ reads.scopes
  familyExpiresAt := reads.familyExpiresAt.trans evolves.expiresAt.symm

theorem RotatedTokens.Carries.evolves {tokens : RotatedTokens} {family later : FamilyRow}
    (carries : tokens.Carries family) (evolves : family.Evolves later) : tokens.Carries later where
  id := carries.id.trans evolves.id.symm
  subject := carries.subject.trans (congrArg Sixteen.hex evolves.userId.symm)
  scopes := evolves.scopes.symm ▸ carries.scopes

namespace RefreshTables

variable {Session : Type} {tables after : RefreshTables Session} {session : Session}

/-- A committed token has the digest, and its family's committed row is as said. -/
def Homes (presented : SecretDigest) (fact : FamilyRow → Prop)
    (tables : RefreshTables Session) : Prop :=
  ∃ token ∈ tables.tokens.committed, token.tokenHash = presented ∧
    ∃ family ∈ tables.families.committed, family.id = token.familyId ∧ fact family

theorem Homes.rely {presented : SecretDigest} {fact : FamilyRow → Prop}
    (homes : Homes presented fact tables) (rely : Rely session tables after)
    (evolves : ∀ row later, row.Evolves later → fact row → fact later) :
    Homes presented fact after := by
  obtain ⟨token, among, digest, family, member, home, said⟩ := homes
  obtain ⟨token', among', grown⟩ := rely.tokensEvolve token among
  obtain ⟨family', member', grown'⟩ := rely.familiesEvolve family member
  refine ⟨token', among', grown.tokenHash.trans digest, family', member', ?_,
    evolves family family' grown' said⟩
  exact grown'.id.trans (home.trans grown.familyId.symm)

variable [DecidableEq Session]

/-- What a session sees is bounded where the tokens it inserted are. -/
theorem Sound.bounded_view (sound : tables.Sound)
    (bounded : Bounded tables.families.committed tables.tokens.committed)
    (own : ∀ slot ∈ tables.tokens.mine session, ∀ row, slot.held = some (session, row) →
      (∃ base, slot.committed = some base) ∨ ∃ family ∈ tables.families.view session,
        family.id = row.familyId ∧ row.expiresAt ≤ family.expiresAt) :
    Bounded (tables.families.view session) (tables.tokens.view session) := by
  have carried : ∀ base ∈ tables.tokens.committed, ∀ token, base.Evolves token →
      ∃ family ∈ tables.families.view session, family.id = token.familyId ∧
        token.expiresAt ≤ family.expiresAt := by
    intro base committed token evolves
    obtain ⟨family, member, home, le⟩ := bounded base committed
    obtain ⟨later, seen, grown⟩ := sound.families_evolve session member
    refine ⟨later, seen, grown.id.trans (home.trans evolves.familyId.symm), ?_⟩
    rw [evolves.expiresAt, grown.expiresAt]
    exact le
  intro token seen
  obtain ⟨slot, mine, held⟩ | ⟨slot, member, _, base⟩ := LockedTable.mem_view_cases seen
  · obtain ⟨base, committed⟩ | fresh := own slot mine token held
    · exact carried base (LockedTable.mem_committed_of_mine mine committed) token
        (sound.tokens slot mine.1 base committed session token held)
    · exact fresh
  · exact carried token (LockedTable.mem_committed.mpr ⟨slot, member, base⟩) token (.refl token)

/-! ## What the calls end with -/

/-- What a new family's transaction shows of its login. -/
structure Logged (rotation : RefreshRotation) (subject : UserId) (scopes : ScopeSet)
    (now : Instant) (tokens : RotatedTokens) (family : FamilyRow) (families : List FamilyRow)
    (rows : List TokenRow) : Prop where
  issued : tokens.IssuedFor rotation.hash family families rows
  subject : family.userId = subject
  scopes : family.scopes = scopes.toClaim
  expiresAt : family.expiresAt = now + rotation.familyLifetime.duration

/-- What a rotation shows of the token it was given. -/
structure Renewed (rotation : RefreshRotation) (presented : Opaque) (now : Instant)
    (tokens : RotatedTokens) (family : FamilyRow) (families : List FamilyRow)
    (rows parents : List TokenRow) : Prop where
  issued : tokens.IssuedFor rotation.hash family families rows
  parent : ∃ row ∈ parents, row.tokenHash = .of rotation.hash presented ∧ row.familyId = family.id
  unexpired : now < family.expiresAt

/-- What holds when a call of the service is done. -/
structure Serves (rotation : RefreshRotation) (session : Session) (call : RotationCall)
    (answer : RotationAnswer) (tables : RefreshTables Session) : Prop where
  kept : FamiliesKept (tables.families.view session) (tables.tokens.view session)
  bounded : Bounded tables.families.committed tables.tokens.committed →
    Bounded (tables.families.view session) (tables.tokens.view session)
  begun : ∀ subject scopes now signedAt family draws tokens,
    call = .begin subject scopes now signedAt family draws → answer = .begun tokens →
    ∃ family, Logged rotation subject scopes now tokens family (tables.families.view session)
      (tables.tokens.view session)
  rotated : ∀ admitted presented now signedAt draws tokens,
    call = .rotate admitted presented now signedAt draws → answer = .outcome (.rotated tokens) →
    ∃ token family, Opaque.fromWire .refresh presented = some token ∧
      Renewed rotation token now tokens family (tables.families.view session)
        (tables.tokens.view session) tables.tokens.committed

/-- A done transition leaves what its session sees bounded, if the successor it
may have inserted is. -/
theorem Transitioned.bounded {request : AdvanceRequest} {transition : RefreshTransition}
    {start : RefreshTables Session}
    (done : Transitioned session request start tables transition) (sound : tables.Sound)
    (bounded : Bounded tables.families.committed tables.tokens.committed)
    (successor : ∀ family token, Rotated session request family token tables →
      token.tokenHash = request.presented → token.familyId = family.id →
      request.successorExpiresAt ≤ family.expiresAt) :
    Bounded (tables.families.view session) (tables.tokens.view session) := by
  refine sound.bounded_view bounded fun slot mine row held => ?_
  cases transition with
  | advanced =>
      obtain ⟨family, token, rotated, _, _, digest, same, _⟩ := done
      have own : locked session family ∈ tables.families.mine session := rotated.families ▸ rfl
      rw [rotated.tokens] at mine
      obtain rfl | rfl := mine
      · obtain ⟨-, rfl⟩ := Prod.mk.inj (Option.some.inj held)
        exact .inr ⟨family, LockedTable.mem_view.mpr ⟨_, own.1, Slot.view_held rfl⟩, rfl,
          successor family token rotated digest same⟩
      · exact .inl ⟨token, rfl⟩
  | replayed revoked =>
      obtain ⟨_, _, swept, _⟩ := done
      obtain ⟨base, _, rfl, _⟩ := swept.own slot mine
      exact .inl ⟨base, rfl⟩
  | familyRevoked =>
      obtain ⟨_, _, _, holding⟩ := done
      rw [holding.tokens] at mine
      cases mine
  | unusable =>
      obtain ⟨idle, _⟩ | ⟨_, _, _, holding⟩ | ⟨_, token, _, _, holding⟩ := done
      · rw [idle.2] at mine
        cases mine
      · rw [holding.tokens] at mine
        cases mine
      · rw [holding.tokens] at mine
        obtain rfl := mine
        exact .inl ⟨token, rfl⟩

omit [DecidableEq Session] in
/-- The family a presented token's grant was read from is the one it rotates in. -/
theorem Rotated.home {request : AdvanceRequest} {family : FamilyRow} {token : TokenRow}
    {fact : FamilyRow → Prop} (rotated : Rotated session request family token tables)
    (sound : tables.Sound) (digest : token.tokenHash = request.presented)
    (same : token.familyId = family.id) (homes : Homes request.presented fact tables) :
    family ∈ tables.families.committed ∧ token ∈ tables.tokens.committed ∧ fact family := by
  obtain ⟨other, among, equal, home, member, named, said⟩ := homes
  have own : locked session family ∈ tables.families.mine session := rotated.families ▸ rfl
  have taken : rewritten session token (request.consumed token) ∈ tables.tokens.mine session :=
    rotated.tokens ▸ .inr rfl
  have committed := LockedTable.mem_committed_of_mine taken rfl
  have houses := LockedTable.mem_committed_of_mine own rfl
  obtain rfl := sound.digests.committed_same among committed (equal.trans digest.symm)
  obtain rfl := sound.familyIds.committed_same member houses (named.trans same)
  exact ⟨houses, committed, said⟩

/-! ## Outlines -/

variable {start : RefreshTables Session} {rotation : RefreshRotation}

/-- Before its transaction the session holds nothing. -/
def Ready (session : Session) (start tables : RefreshTables Session) : Prop :=
  Idle session tables ∧ Since start tables

omit [DecidableEq Session] in
theorem ready_stable : (ground Session).Stable session (Ready session start) :=
  fun _ _ _ _ holds rely => ⟨Idle.rely holds.1 rely, holds.2.rely rely⟩

theorem grantFor_outline {presented : SecretDigest} :
    (ground Session).Outline (refreshEngine Session) session
      (fun grant tables => Ready session start tables ∧
        ∀ given, grant = some given → Homes presented given.Reads tables)
      (SqlxRefreshTokenRepository.grantFor presented) (Ready session start) := by
  refine Ground.Outline.ask (fun reply tables => Ready session start tables ∧
    ∀ columns, reply = some columns → Homes presented (fun family => columns = (family.id.bytes,
      family.userId.bytes, family.scopes, family.expiresAt)) tables) ?_ ?_ fun reply => ?_
  · intro tables reply after sound ready runs
    have seen : tables.tokens.view session = tables.tokens.committed :=
      LockedTable.view_eq_committed fun slot mine => by
        rw [ready.1.2] at mine
        cases mine
    have sees : tables.families.view session = tables.families.committed :=
      LockedTable.view_eq_committed fun slot mine => by
        rw [ready.1.1] at mine
        cases mine
    obtain ⟨rfl, rfl⟩ := Prod.mk.inj (Option.some.inj runs)
    refine ⟨sound, ready, fun columns first => ?_⟩
    obtain ⟨token, among, joined⟩ := List.mem_flatMap.mp (List.mem_of_head? first)
    obtain ⟨family, member, rfl⟩ := List.mem_map.mp joined
    rw [seen, List.mem_filter] at among
    rw [sees, List.mem_filter] at member
    exact ⟨token, among.1, of_decide_eq_true among.2, family, member.1,
      of_decide_eq_true member.2, rfl⟩
  · intro reply before after first second holds rely
    refine ⟨ready_stable before after first second holds.1 rely, fun columns given => ?_⟩
    refine (holds.2 columns given).rely rely fun row later evolves same => ?_
    rw [same, evolves.id, evolves.userId, evolves.scopes, evolves.expiresAt]
  cases reply with
  | none => exact fun tables _ holds => ⟨holds.1, by rintro _ ⟨⟩⟩
  | some columns =>
      obtain ⟨familyBytes, userBytes, claim, familyExpiresAt⟩ := columns
      refine Ground.Outline.except fun family named => ?_
      refine Ground.Outline.except fun user owned => ?_
      refine Ground.Outline.except fun scopes parsed => ?_
      intro tables _ holds
      refine ⟨holds.1, ?_⟩
      rintro _ ⟨⟩
      obtain ⟨token, among, digest, row, member, home, same⟩ := holds.2 _ rfl
      obtain ⟨rfl, rfl, rfl, rfl⟩ : familyBytes = row.id.bytes ∧ userBytes = row.userId.bytes ∧
          claim = row.scopes ∧ familyExpiresAt = row.expiresAt := by simpa using same
      refine ⟨token, among, digest, row, member, home, ?_, ?_, ?_, rfl⟩
      · exact Sixteen.bytes_inj.mp (sixteenFrom_ok named)
      · exact Sixteen.bytes_inj.mp (sixteenFrom_ok owned)
      · unfold scopesFrom at parsed
        cases read : ScopeSet.parseClaim row.scopes with
        | error error =>
            rw [read] at parsed
            cases parsed
        | ok scopes =>
            rw [read] at parsed
            cases parsed
            rfl

theorem spend_outline {presented : Opaque} {grant : RefreshGrant} {now signedAt : Instant}
    {draws : RefreshDraws} :
    (ground Session).Outline (refreshEngine Session) session
      (fun outcome tables => FamiliesKept (tables.families.view session)
          (tables.tokens.view session) ∧
        (Bounded tables.families.committed tables.tokens.committed →
          Bounded (tables.families.view session) (tables.tokens.view session)) ∧
        ∀ tokens, outcome = .rotated tokens → ∃ family, Renewed rotation presented now tokens family
          (tables.families.view session) (tables.tokens.view session) tables.tokens.committed)
      (rotation.spend (.of rotation.hash presented) grant now signedAt draws)
      fun tables => Ready session start tables ∧
        Homes (.of rotation.hash presented) grant.Reads tables := by
  refine Ground.Outline.except fun successorId _ => ?_
  refine Ground.Outline.except fun successor _ => ?_
  refine Ground.Outline.except fun access signed => ?_
  obtain ⟨subject, scope⟩ := AccessTokenIssuer.issue_ok signed
  have decides : (ground Session).Outline (refreshEngine Session) session _
      (SqlxRefreshTokenRepository.decide
        (rotation.request (.of rotation.hash presented) grant successorId successor now))
      (fun tables => Idle session tables ∧ Since start tables) :=
    SqlxRefreshTokenRepository.decide_outline
  have framed := decides.frame (Homes (.of rotation.hash presented) grant.Reads)
      (fun _ _ _ _ homes rely => homes.rely rely fun _ _ evolves reads => reads.evolves evolves)
      fun statement tables reply after runs homes => by
        have leaves := run_leaves statement runs
        unfold Homes
        rw [leaves.families, leaves.tokens]
        exact homes
  refine (framed.mapError storeFailure).bind fun transition => ?_
  intro tables sound done
  obtain ⟨done, homes⟩ := done
  refine ⟨done.kept sound, fun bounded => done.bounded sound bounded ?_, ?_⟩
  · intro family token rotated digest same
    obtain ⟨_, _, reads⟩ := rotated.home sound digest same homes
    rw [← reads.familyExpiresAt]
    exact min_le_right _ _
  · intro tokens handed
    cases transition with
    | replayed | familyRevoked | unusable => cases handed
    | advanced =>
        obtain rfl := RefreshOutcome.rotated.inj handed
        obtain ⟨family, token, rotated, _, unexpired, digest, same, _⟩ := done
        obtain ⟨houses, committed, reads⟩ := rotated.home sound digest same homes
        have own : locked session family ∈ tables.families.mine session := rotated.families ▸ rfl
        have fresh : inserted session ((rotation.request (.of rotation.hash presented) grant
            successorId successor now).successorRow family.id) ∈ tables.tokens.mine session :=
          rotated.tokens ▸ .inl rfl
        refine ⟨family, ⟨?_, ?_, ?_⟩, ⟨token, committed, digest, same⟩, unexpired⟩
        · exact LockedTable.mem_view.mpr ⟨_, own.1, Slot.view_held rfl⟩
        · exact ⟨reads.id, subject.trans (congrArg Sixteen.hex reads.user), _, reads.scopes, scope⟩
        · exact ⟨_, LockedTable.mem_view.mpr ⟨_, fresh.1, Slot.view_held rfl⟩, rfl, rfl⟩

omit [DecidableEq Session] in
/-- A session that is not in a transaction sees what is committed. -/
theorem Idle.untouched (idle : Idle session tables) : Untouched session tables := by
  constructor
  · intro slot mine
    rw [idle.1] at mine
    cases mine
  · intro slot mine
    rw [idle.2] at mine
    cases mine

theorem Idle.serves {call : RotationCall} {reason : RefreshRejection} (idle : Idle session tables)
    (sound : tables.Sound) :
    Serves rotation session call (.outcome (rejected reason)) tables where
  kept := idle.untouched.kept sound
  bounded bounded := by
    rw [idle.untouched.families_view, idle.untouched.tokens_view]
    exact bounded
  begun := by rintro _ _ _ _ _ _ _ _ ⟨⟩
  rotated := by rintro _ _ _ _ _ _ _ ⟨⟩

theorem rotate_outline {admitted : Admitted} {presented : String} {now signedAt : Instant}
    {draws : RefreshDraws} :
    (ground Session).Outline (refreshEngine Session) session
      (fun outcome => Serves rotation session (.rotate admitted presented now signedAt draws)
        (.outcome outcome))
      (rotation.rotate admitted presented now signedAt draws) (Ready session start) := by
  refine Ground.Outline.except fun _ _ => ?_
  cases read : Opaque.fromWire .refresh presented with
  | none => exact fun tables sound ready => Idle.serves ready.1 sound
  | some token =>
      refine (grantFor_outline.mapError storeFailure).bind fun grant => ?_
      cases grant with
      | none => exact fun tables sound ready => Idle.serves ready.1.1 sound
      | some grant =>
          have spent : (ground Session).Outline (refreshEngine Session) session _
              (rotation.spend (.of rotation.hash token) grant now signedAt draws)
              fun tables => Ready session start tables ∧
                Homes (.of rotation.hash token) grant.Reads tables := spend_outline
          refine (spent.weaken fun tables _ holds => ⟨holds.1, holds.2 grant rfl⟩).conclude ?_
          intro outcome tables sound done
          refine ⟨done.1, done.2.1, by rintro _ _ _ _ _ _ _ ⟨⟩, ?_⟩
          rintro _ _ _ _ _ tokens ⟨⟩ answered
          obtain ⟨family, renewed⟩ := done.2.2 tokens (RotationAnswer.outcome.inj answered)
          exact ⟨token, family, read, renewed⟩

theorem begin_outline {subject : UserId} {scopes : ScopeSet} {now signedAt : Instant}
    {family : Option FamilyId} {draws : RefreshDraws} :
    (ground Session).Outline (refreshEngine Session) session
      (fun tokens => Serves rotation session (.begin subject scopes now signedAt family draws)
        (.begun tokens))
      (rotation.begin subject scopes now signedAt family draws) (Idle session) := by
  refine Ground.Outline.except fun family' _ => ?_
  refine Ground.Outline.except fun firstTokenId _ => ?_
  refine Ground.Outline.except fun refresh _ => ?_
  refine Ground.Outline.except fun access signed => ?_
  obtain ⟨named, scope⟩ := AccessTokenIssuer.issue_ok signed
  refine ((SqlxRefreshTokenRepository.writeFamily_outline _).mapError
    storeFailure).bind fun _ => ?_
  intro tables sound begun
  let opened := rotation.newFamily family' subject scopes firstTokenId refresh now
  have own : inserted session opened.row ∈ tables.families.mine session := begun.families ▸ rfl
  have first : inserted session opened.tokenRow ∈ tables.tokens.mine session := begun.tokens ▸ rfl
  have seen : opened.row ∈ tables.families.view session :=
    LockedTable.mem_view.mpr ⟨_, own.1, Slot.view_held rfl⟩
  refine ⟨begun.kept sound rfl, fun bounded => sound.bounded_view bounded ?_, ?_, ?_⟩
  · intro slot mine row held
    rw [begun.tokens, Set.mem_singleton_iff] at mine
    subst mine
    obtain ⟨-, rfl⟩ := Prod.mk.inj (Option.some.inj held)
    exact .inr ⟨opened.row, seen, rfl, min_le_right _ _⟩
  · rintro _ _ _ _ _ _ tokens ⟨⟩ answered
    obtain rfl := RotationAnswer.begun.inj answered
    refine ⟨opened.row, ⟨seen, ⟨rfl, named, scopes, ScopeSet.parseClaim_toClaim scopes, scope⟩, ?_⟩,
      rfl, rfl, rfl⟩
    exact ⟨opened.tokenRow, LockedTable.mem_view.mpr ⟨_, first.1, Slot.view_held rfl⟩, rfl, rfl⟩
  · rintro _ _ _ _ _ _ ⟨⟩

theorem revoke_outline {named : FamilyId} {now : Instant} :
    (ground Session).Outline (refreshEngine Session) session
      (fun rows => Serves rotation session (.revoke named now) (.revoked rows))
      (RefreshRotation.revoke named now) (Idle session) := by
  refine ((SqlxRefreshTokenRepository.revokeWithin_outline named now).mapError
    storeFailure).conclude fun rows tables sound swept => ?_
  refine ⟨swept.kept sound, fun bounded => sound.bounded_view bounded ?_, ?_, ?_⟩
  · intro slot mine row held
    obtain ⟨base, _, rfl, _⟩ := swept.own slot mine
    exact .inl ⟨base, rfl⟩
  · rintro _ _ _ _ _ _ _ ⟨⟩
  · rintro _ _ _ _ _ _ ⟨⟩

end RefreshTables

open RefreshTables

/-- What the calls of the service end with. -/
def rotationOutlining (Session : Type) [DecidableEq Session] (rotation : RefreshRotation) :
    Outlining Session (RefreshTables Session) RotationCall RotationAnswer where
  toGround := ground Session
  idle := Idle
  ends session call _ answer := Serves rotation session call answer

/-- **Every call of the service has an outline.** -/
theorem rotation_outlined (Session : Type) [DecidableEq Session] (rotation : RefreshRotation) :
    Outlined (rotationWorkload Session rotation) (rotationOutlining Session rotation) := by
  refine RefreshTables.outlined rfl rfl (fun _ _ _ _ _ serves => serves.kept) ?_
  intro session call start _ idle
  have waits : (ground Session).Stable session (Idle session) :=
    fun _ _ _ _ idle rely => Idle.rely idle rely
  cases call with
  | «begin» subject scopes now signedAt family draws =>
      exact ⟨Idle session, waits, idle, begin_outline.bind fun _ _ _ serves => serves⟩
  | rotate admitted presented now signedAt draws =>
      exact ⟨Ready session start, ready_stable,
        ⟨idle, fun token member => ⟨token, member, .refl token⟩⟩,
        rotate_outline.bind fun _ _ _ serves => serves⟩
  | revoke family now =>
      exact ⟨Idle session, waits, idle, revoke_outline.bind fun _ _ _ serves => serves⟩

/-! ## Runs -/

abbrev RotationWorld (Session : Type) :=
  World Session (RefreshTables Session) RefreshSql RefreshSql.Reply RotationCall AuthError
    RotationAnswer

abbrev RotationEvent (Session : Type) := Event Session RotationCall AuthError RotationAnswer

/-- The service under every interleaving of calls. -/
abbrev rotationSystem (Session : Type) [DecidableEq Session] (rotation : RefreshRotation) :
    TransitionSystem (RotationWorld Session) (RotationEvent Session) :=
  (rotationWorkload Session rotation).system

namespace RotationWorld

variable {Session : Type}

/-- The committed families. -/
def families (world : RotationWorld Session) : List FamilyRow := world.store.families.committed

/-- The committed tokens. -/
def tokens (world : RotationWorld Session) : List TokenRow := world.store.tokens.committed

end RotationWorld

/-- A call's rotation of a presented refresh token was answered with this pair. -/
def RotationEvent.Renews {Session : Type} (presented : Opaque) (now : Instant)
    (next : RotatedTokens) (event : RotationEvent Session) : Prop :=
  ∃ session admitted wire signedAt draws, Opaque.fromWire .refresh wire = some presented ∧
    event = .answered session (.rotate admitted wire now signedAt draws)
      (.ok (.outcome (.rotated next)))

/-- The pairs of a login's chain: the first one, and whatever the refresh token of
one of them was rotated into. -/
inductive InChain {Session : Type} (first : RotatedTokens) (events : List (RotationEvent Session)) :
    RotatedTokens → Prop
  | login : InChain first events first
  | rotation {tokens next : RotatedTokens} {now : Instant} {event : RotationEvent Session}
      (earlier : InChain first events tokens) (member : event ∈ events)
      (renews : event.Renews tokens.refresh now next) : InChain first events next

/-- A pair of the chain carries the login's user and scopes, and its refresh token
ends no later than the family. -/
structure WithinLogin {Session : Type} (rotation : RefreshRotation) (user : UserId)
    (granted : ScopeSet) (now : Instant) (first : RotatedTokens) (world : RotationWorld Session)
    (tokens : RotatedTokens) : Prop where
  family : tokens.family = first.family
  subject : tokens.access.claims.sub = user.hex
  scopes : tokens.access.claims.scope = granted.toClaim
  refresh : ∃ row ∈ world.tokens, row.tokenHash = .of rotation.hash tokens.refresh ∧
    row.familyId = first.family ∧ row.expiresAt ≤ now + rotation.familyLifetime.duration
  grant : ∃ row ∈ world.families, row.id = first.family ∧ row.userId = user ∧
    row.scopes = granted.toClaim ∧ row.expiresAt = now + rotation.familyLifetime.duration

/-- What holds of the chain of every login in every run. -/
structure ChainsBounded (Session : Type) [DecidableEq Session] (rotation : RefreshRotation) :
    Prop where
  /-- Whatever the chain issues is within the login. -/
  issued : ∀ before session subject scopes now signedAt family draws first after events last,
    (rotationSystem Session rotation).Reachable before →
    (rotationSystem Session rotation).Step before
      (.answered session (.begin subject scopes now signedAt family draws) (.ok (.begun first)))
      after →
    (rotationSystem Session rotation).Run after events last → ∀ tokens,
    InChain first events tokens → WithinLogin rotation subject scopes now first last tokens
  /-- No row of the family, returned to somebody or not, ends after the family. -/
  rows : ∀ before session subject scopes now signedAt family draws first after events last,
    (rotationSystem Session rotation).Reachable before →
    (rotationSystem Session rotation).Step before
      (.answered session (.begin subject scopes now signedAt family draws) (.ok (.begun first)))
      after →
    (rotationSystem Session rotation).Run after events last → ∀ row ∈ last.tokens,
    row.familyId = first.family → row.expiresAt ≤ now + rotation.familyLifetime.duration
  /-- No rotation of the chain is answered at the end of the family or later. -/
  ends : ∀ before session subject scopes now signedAt family draws first after events last,
    (rotationSystem Session rotation).Reachable before →
    (rotationSystem Session rotation).Step before
      (.answered session (.begin subject scopes now signedAt family draws) (.ok (.begun first)))
      after →
    (rotationSystem Session rotation).Run after events last → ∀ tokens next clock,
    InChain first events tokens → ∀ event ∈ events,
    RotationEvent.Renews tokens.refresh clock next event →
    clock < now + rotation.familyLifetime.duration

section Runs

variable {Session : Type} [DecidableEq Session] {rotation : RefreshRotation}
  {before after last : RotationWorld Session} {event : RotationEvent Session}
  {events : List (RotationEvent Session)}

/-- The invariant holds in every reachable state. -/
theorem RotationWorld.sound (reachable : (rotationSystem Session rotation).Reachable before) :
    Interleaving.Outlined.Sound (rotationWorkload Session rotation)
      (rotationOutlining Session rotation) before :=
  (rotation_outlined Session rotation).sound.reachable reachable

theorem rotation_keeps (Session : Type) [DecidableEq Session] (rotation : RefreshRotation) :
    KeepsTables (rotationWorkload Session rotation) where
  engine := rfl
  sound _ reachable := (RotationWorld.sound reachable).invariant

/-- No committed token ends after its family. -/
theorem RotationWorld.bounded (reachable : (rotationSystem Session rotation).Reachable before) :
    Bounded before.families before.tokens := by
  apply reachable.rec_on
  · rintro _ rfl token ⟨⟩
  · intro before event after reachable bounded step
    unfold families tokens
    obtain ⟨families, tokens⟩ | ⟨⟨call, answer, done⟩, commits⟩ :=
      (rotation_keeps Session rotation).committed_cases step
    · rw [families, tokens]
      exact bounded
    · obtain ⟨_, serves⟩ := (sound reachable).done done
      rw [commits, RefreshTables.commit, LockedTable.committed_commit, LockedTable.committed_commit]
      exact serves.bounded bounded

/-- A pair that was issued for a family stays so. -/
theorem RotatedTokens.IssuedFor.run {tokens : RotatedTokens} {family : FamilyRow}
    (issued : tokens.IssuedFor rotation.hash family before.families before.tokens)
    (reachable : (rotationSystem Session rotation).Reachable before)
    (run : (rotationSystem Session rotation).Run before events after) :
    ∃ later, family.Evolves later ∧
      tokens.IssuedFor rotation.hash later after.families after.tokens := by
  have keeps := rotation_keeps Session rotation
  obtain ⟨later, member, evolves⟩ := keeps.families_run reachable run issued.member
  obtain ⟨row, among, digest, same⟩ := issued.refresh
  obtain ⟨row', among', grown⟩ := keeps.tokens_run reachable run among
  refine ⟨later, evolves, member, issued.carries.evolves evolves, row', among',
    grown.tokenHash.trans digest, ?_⟩
  exact grown.familyId.trans (same.trans evolves.id.symm)

/-- What a login's answer leaves committed. -/
theorem RotationWorld.logged {session : Session} {subject : UserId} {scopes : ScopeSet}
    {now signedAt : Instant} {family : Option FamilyId} {draws : RefreshDraws}
    {first : RotatedTokens} (reachable : (rotationSystem Session rotation).Reachable before)
    (step : (rotationSystem Session rotation).Step before (.answered session
      (.begin subject scopes now signedAt family draws) (.ok (.begun first))) after) :
    ∃ row, Logged rotation subject scopes now first row after.families after.tokens := by
  obtain ⟨_, serves, commits⟩ := (sound reachable).answered step
  obtain ⟨row, logged⟩ := serves.begun _ _ _ _ _ _ _ rfl rfl
  refine ⟨row, ?_⟩
  have committed : after.store = before.store.commit session := commits
  unfold families tokens
  rw [committed, RefreshTables.commit, LockedTable.committed_commit, LockedTable.committed_commit]
  exact logged

/-- What a rotation's answer leaves committed. -/
theorem RotationWorld.renewed {presented : Opaque} {now : Instant} {next : RotatedTokens}
    (reachable : (rotationSystem Session rotation).Reachable before)
    (step : (rotationSystem Session rotation).Step before event after)
    (renews : event.Renews presented now next) :
    ∃ row, Renewed rotation presented now next row after.families after.tokens before.tokens := by
  obtain ⟨session, admitted, wire, signedAt, draws, read, rfl⟩ := renews
  obtain ⟨_, serves, commits⟩ := (sound reachable).answered step
  obtain ⟨token, row, parsed, renewed⟩ := serves.rotated _ _ _ _ _ _ rfl rfl
  obtain rfl := Option.some.inj (read.symm.trans parsed)
  refine ⟨row, ?_⟩
  have committed : after.store = before.store.commit session := commits
  unfold families tokens
  rw [committed, RefreshTables.commit, LockedTable.committed_commit, LockedTable.committed_commit]
  exact renewed

/-- A rotation in the run renews into the presented token's family. -/
theorem RotationWorld.renewed_run {presented : Opaque} {now : Instant} {next : RotatedTokens}
    (reachable : (rotationSystem Session rotation).Reachable before)
    (run : (rotationSystem Session rotation).Run before events last) (member : event ∈ events)
    (renews : event.Renews presented now next) {row : TokenRow} (present : row ∈ last.tokens)
    (digest : row.tokenHash = .of rotation.hash presented) :
    ∃ family, next.IssuedFor rotation.hash family last.families last.tokens ∧
      row.familyId = family.id ∧ now < family.expiresAt := by
  have keeps := rotation_keeps Session rotation
  obtain ⟨front, suffix, middle, after, rfl, previous, step, rest⟩ := run.mem_inv member
  have later := reachable.run previous
  obtain ⟨family, renewed⟩ := renewed later step renews
  obtain ⟨parent, among, equal, same⟩ := renewed.parent
  obtain ⟨family', evolves, issued⟩ := renewed.issued.run (later.step step) rest
  -- the token that was presented is the row, for digests are unique
  obtain ⟨parent', committed, grown⟩ :=
    keeps.tokens_run later (.trans (.single step) rest) among
  have tables := keeps.sound last (reachable.run run)
  obtain rfl := tables.digests.committed_same committed present
    (grown.tokenHash.trans (equal.trans digest.symm))
  refine ⟨family', issued, ?_, evolves.expiresAt.symm ▸ renewed.unexpired⟩
  exact grown.familyId.trans (same.trans evolves.id.symm)

/-- **Whatever the chain issues is issued for the login's family.** -/
theorem InChain.issued {first tokens : RotatedTokens} {family : FamilyRow}
    (chain : InChain first events tokens)
    (reachable : (rotationSystem Session rotation).Reachable before)
    (run : (rotationSystem Session rotation).Run before events last)
    (login : first.IssuedFor rotation.hash family last.families last.tokens) :
    tokens.IssuedFor rotation.hash family last.families last.tokens := by
  induction chain with
  | login => exact login
  | rotation earlier member renews ih =>
      obtain ⟨row, among, digest, same⟩ := ih.refresh
      obtain ⟨family', issued, home, _⟩ :=
        RotationWorld.renewed_run reachable run member renews among digest
      have tables := (rotation_keeps Session rotation).sound last (reachable.run run)
      obtain rfl := tables.familyIds.committed_same ih.member issued.member (same.symm.trans home)
      exact issued

end Runs

/-- **No chain of rotations outlives its login** by more than the family lifetime,
or carries another user or other scopes, however the calls of the service
interleave and wherever they fail. -/
theorem chains_bounded (Session : Type) [DecidableEq Session] (rotation : RefreshRotation) :
    ChainsBounded Session rotation where
  issued before session subject scopes now signedAt family draws first after events last reachable
      step run tokens chain := by
    obtain ⟨row, logged⟩ := RotationWorld.logged reachable step
    obtain ⟨later, evolves, login⟩ := logged.issued.run (reachable.step step) run
    have issued := chain.issued (reachable.step step) run login
    have home : later.id = first.family := login.carries.id.symm
    have granted : later.scopes = scopes.toClaim := evolves.scopes.trans logged.scopes
    have expires := evolves.expiresAt.trans logged.expiresAt
    refine ⟨issued.carries.id.trans home, ?_, ?_, ?_, ?_⟩
    · rw [issued.carries.subject, evolves.userId, logged.subject]
    · obtain ⟨carried, parsed, same⟩ := issued.carries.scopes
      rw [granted, ScopeSet.parseClaim_toClaim] at parsed
      cases parsed
      exact same
    · obtain ⟨token, among, digest, same⟩ := issued.refresh
      have bounded := RotationWorld.bounded (reachable.run ((TransitionSystem.Run.single step).trans run))
      obtain ⟨family', member, named, le⟩ := bounded token among
      have tables := (rotation_keeps Session rotation).sound last
        (reachable.run ((TransitionSystem.Run.single step).trans run))
      obtain rfl := tables.familyIds.committed_same member issued.member (named.trans same)
      exact ⟨token, among, digest, same.trans home, le.trans expires.le⟩
    · exact ⟨later, login.member, home, evolves.userId.trans logged.subject, granted, expires⟩
  rows before session subject scopes now signedAt family draws first after events last reachable
      step run token among same := by
    obtain ⟨row, logged⟩ := RotationWorld.logged reachable step
    obtain ⟨later, evolves, login⟩ := logged.issued.run (reachable.step step) run
    have whole := reachable.run ((TransitionSystem.Run.single step).trans run)
    obtain ⟨family', member, named, le⟩ := RotationWorld.bounded whole token among
    have tables := (rotation_keeps Session rotation).sound last whole
    obtain rfl := tables.familyIds.committed_same member login.member
      (named.trans (same.trans login.carries.id))
    exact le.trans (evolves.expiresAt.trans logged.expiresAt).le
  ends before session subject scopes now signedAt family draws first after events last reachable
      step run tokens next clock chain event member renews := by
    obtain ⟨row, logged⟩ := RotationWorld.logged reachable step
    obtain ⟨later, evolves, login⟩ := logged.issued.run (reachable.step step) run
    have issued := chain.issued (reachable.step step) run login
    obtain ⟨token, among, digest, same⟩ := issued.refresh
    obtain ⟨family', renewed, home, unexpired⟩ := RotationWorld.renewed_run (reachable.step step) run
      member renews among digest
    have tables := (rotation_keeps Session rotation).sound last
      (reachable.run ((TransitionSystem.Run.single step).trans run))
    obtain rfl := tables.familyIds.committed_same renewed.member issued.member
      (home.symm.trans same)
    rw [evolves.expiresAt, logged.expiresAt] at unexpired
    exact unexpired

end Renvor
