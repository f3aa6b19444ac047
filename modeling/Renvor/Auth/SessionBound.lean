import Renvor.Auth.SessionLogout
import Renvor.Auth.SessionReplacement

/-! # The bound on a subject's sessions

A login reads the subject's live sessions, evicts the stalest and stores its own
in statements of their own. Where nothing comes between them that adds to the
sessions it read, a subject never holds more than the bound
(`Renvor.sessions_bounded`); two logins that overlap leave one more
(`Renvor.logins_overlap`).
-/

namespace Renvor

open Foundation
open Foundation.Concurrent (Event Move World Service Staging Places RanSince)

variable {Thread : Type}

/-- A session of the user is stored under the digest. -/
def SessionRow.Owned (rows : List SessionRow) (digest : SecretDigest) (user : UserId) : Prop :=
  ∃ row ∈ rows, row.tokenHash = digest ∧ row.userId = user

/-- A session of the user has the digest, and is live at the cutoffs. -/
def SessionRow.OwnedLive (rows : List SessionRow) (digest : SecretDigest) (user : UserId)
    (idleCutoff absoluteCutoff : Instant) : Prop :=
  ∃ row ∈ rows, row.tokenHash = digest ∧ row.userId = user ∧
    row.live idleCutoff absoluteCutoff = true

/-- The call in a thread goes on to another statement. -/
def SessionWorld.Asks (world : SessionWorld Thread) (thread : Thread) (call : SessionCall) : Prop :=
  ∃ statement next, world.running thread = some (call, .query statement next)

/-- A login of the user read the live sessions, at a clock reading. -/
def LoginRead (user : UserId) (thread : Thread) (now : Instant) (event : SessionEvent Thread) :
    Prop :=
  ∃ presented draws statement reply, event =
    .ran thread (.begin user presented now draws) statement (some reply) ∧ statement.Reads

/-- A login of the user has read the live sessions, and goes on. -/
def Choosing (past : List (SessionEvent Thread) × SessionWorld Thread) (user : UserId)
    (thread : Thread) : Prop :=
  ∃ presented now draws, past.2.Asks thread (.begin user presented now draws) ∧
    RanSince SessionSql.Reads past.1 thread (.begin user presented now draws)

namespace SessionService

variable (service : SessionService)

/-- A rotation of a session of the user has checked it live, and goes on. -/
def Swapping (past : List (SessionEvent Thread) × SessionWorld Thread) (user : UserId)
    (thread : Thread) : Prop :=
  ∃ presented now draws digest, past.2.Asks thread (.rotate presented now draws) ∧
    service.presentedDigest presented = some digest ∧
    SessionRow.Owned past.2.store digest user ∧
    RanSince SessionSql.Touches past.1 thread (.rotate presented now draws)

/-- The step does not come between a login of the user and what it read. -/
structure LoginsApart (user : UserId) (past : List (SessionEvent Thread) × SessionWorld Thread)
    (event : SessionEvent Thread) : Prop where
  -- a login reads the live sessions while no other login and no rotation is under way
  alone : ∀ thread now, LoginRead user thread now event → ∀ other, other ≠ thread →
    ¬ Choosing past user other ∧ ¬ service.Swapping past user other
  -- no rotation finds a session of the user live while a login is under way
  apart : ∀ thread presented now draws digest read idleCutoff absoluteCutoff reply,
    event = .ran thread (.rotate presented now draws)
      (.touch digest read idleCutoff absoluteCutoff) (some reply) →
    SessionRow.OwnedLive past.2.store digest user idleCutoff absoluteCutoff →
    ∀ other, ¬ Choosing past user other
  -- no session that is found live is refreshed at a clock behind that of a login
  clocks : ∀ thread call digest now idleCutoff absoluteCutoff reply,
    event = .ran thread call (.touch digest now idleCutoff absoluteCutoff) (some reply) →
    SessionRow.OwnedLive past.2.store digest user idleCutoff absoluteCutoff →
    ∀ earlier ∈ past.1, ∀ other read, LoginRead user other read earlier → read ≤ now

/-- Not revoked, and live whenever a login of the user read the live sessions. -/
def Current (user : UserId) (events : List (SessionEvent Thread)) (row : SessionRow) : Prop :=
  row.revokedAt = none ∧ ∀ event ∈ events, ∀ thread now, LoginRead user thread now event →
    row.live (service.policy.idleCutoff now) (service.policy.absoluteCutoff now) = true

end SessionService

/-! ## What a statement does to one row -/

/-- What a statement makes of a row. -/
def SessionSql.change : SessionSql → SessionRow → SessionRow
  | touch digest now idleCutoff absoluteCutoff, row =>
      if row.tokenHash = digest && row.live idleCutoff absoluteCutoff
      then { row with lastSeenAt := now } else row
  | revoke digest now, row =>
      if row.tokenHash = digest && row.revokedAt.isNone
      then { row with revokedAt := some now } else row
  | revokeAll user now, row =>
      if row.userId = user && row.revokedAt.isNone
      then { row with revokedAt := some now } else row
  | _, row => row

namespace SessionSql

/-- The rows a statement leaves: each row as it makes it, and the inserted one. -/
theorem run_rows (statement : SessionSql) (rows : List SessionRow) :
    (run statement rows).2 =
      rows.map statement.change ++ (inserted statement (run statement rows).1).toList := by
  cases statement with
  | insert row =>
      show _ = rows.map (fun row => row) ++ _
      rw [List.map_id']
      obtain ⟨replied, left, _⟩ | ⟨replied, left⟩ := insert_cases row rows
      · rw [replied, left]
        rfl
      · rw [replied, left]
        exact (List.append_nil _).symm
  | touch | revoke | revokeAll => exact (List.append_nil _).symm
  | owner | liveFor =>
      show rows = rows.map (fun row => row) ++ _
      rw [List.map_id']
      exact (List.append_nil _).symm

theorem change_evolves (statement : SessionSql) (row : SessionRow) :
    row.Evolves (statement.change row) := by
  cases statement with
  | touch =>
      unfold change
      dsimp only
      split
      · exact ⟨rfl, rfl, rfl, rfl, fun revoked => revoked⟩
      · exact .refl row
  | revoke | revokeAll =>
      unfold change
      dsimp only
      split
      · exact ⟨rfl, rfl, rfl, rfl, fun _ => rfl⟩
      · exact .refl row
  | insert | owner | liveFor => exact .refl row

/-- A row stays as it is, is revoked, or is refreshed because it is live. -/
theorem change_cases (statement : SessionSql) (row : SessionRow) :
    statement.change row = row ∨ (statement.change row).revokedAt.isSome = true ∨
      ∃ now idleCutoff absoluteCutoff, statement =
          .touch row.tokenHash now idleCutoff absoluteCutoff ∧
        row.live idleCutoff absoluteCutoff = true ∧
        statement.change row = { row with lastSeenAt := now } := by
  cases statement with
  | touch digest now idleCutoff absoluteCutoff =>
      by_cases hit : (row.tokenHash = digest && row.live idleCutoff absoluteCutoff) = true
      · have both := hit
        rw [Bool.and_eq_true] at both
        obtain rfl := of_decide_eq_true both.1
        exact .inr (.inr ⟨now, idleCutoff, absoluteCutoff, rfl, both.2, if_pos hit⟩)
      · exact .inl (if_neg hit)
  | revoke digest now =>
      by_cases hit : (row.tokenHash = digest && row.revokedAt.isNone) = true
      · refine .inr (.inl ?_)
        show (if _ then _ else row : SessionRow).revokedAt.isSome = true
        rw [if_pos hit]
        rfl
      · exact .inl (if_neg hit)
  | revokeAll user now =>
      by_cases hit : (row.userId = user && row.revokedAt.isNone) = true
      · refine .inr (.inl ?_)
        show (if _ then _ else row : SessionRow).revokedAt.isSome = true
        rw [if_pos hit]
        rfl
      · exact .inl (if_neg hit)
  | insert | owner | liveFor => exact .inl rfl

end SessionSql

namespace SessionRow

variable {row : SessionRow} {idleCutoff absoluteCutoff : Instant}

theorem live_iff : row.live idleCutoff absoluteCutoff = true ↔
    row.revokedAt = none ∧ idleCutoff < row.lastSeenAt ∧ absoluteCutoff < row.createdAt := by
  unfold live
  rw [Bool.and_eq_true, Bool.and_eq_true, Option.isNone_iff_eq_none, and_assoc]
  constructor
  · exact fun ⟨live, seen, made⟩ => ⟨live, of_decide_eq_true seen, of_decide_eq_true made⟩
  · exact fun ⟨live, seen, made⟩ => ⟨live, decide_eq_true seen, decide_eq_true made⟩

end SessionRow

namespace SessionService

variable {service : SessionService} {user : UserId} {events : List (SessionEvent Thread)}
  {event : SessionEvent Thread} {row : SessionRow}

/-- A session that is live was so before. -/
theorem live_earlier {earlier now : Instant} (before : earlier ≤ now)
    (live : row.live (service.policy.idleCutoff now) (service.policy.absoluteCutoff now) = true) :
    row.live (service.policy.idleCutoff earlier) (service.policy.absoluteCutoff earlier) = true := by
  obtain ⟨unrevoked, seen, made⟩ := SessionRow.live_iff.mp live
  refine SessionRow.live_iff.mpr ⟨unrevoked, ?_, ?_⟩
  · exact Int.lt_of_le_of_lt (Int.sub_le_sub_right before _) seen
  · exact Int.lt_of_le_of_lt (Int.sub_le_sub_right before _) made

theorem Current.of_append (current : service.Current user (events ++ [event]) row) :
    service.Current user events row :=
  ⟨current.1, fun earlier member => current.2 earlier (List.mem_append_left _ member)⟩

/-- A session stays current where no login reads. -/
theorem Current.append (current : service.Current user events row)
    (unread : ∀ thread now, ¬ LoginRead user thread now event) :
    service.Current user (events ++ [event]) row := by
  refine ⟨current.1, fun earlier member thread now read => ?_⟩
  obtain before | same := List.mem_append.mp member
  · exact current.2 earlier before thread now read
  · rw [List.mem_singleton.mp same] at read
    exact (unread thread now read).elim

/-- A session checked live at a clock that no login is ahead of is current, before
and after it is refreshed. -/
theorem current_of_live {now : Instant}
    (clocks : ∀ earlier ∈ events, ∀ other read, LoginRead user other read earlier → read ≤ now)
    (live : row.live (service.policy.idleCutoff now) (service.policy.absoluteCutoff now) = true) :
    service.Current user events row ∧
      service.Current user events { row with lastSeenAt := now } := by
  have unrevoked := (SessionRow.live_iff.mp live).1
  refine ⟨⟨unrevoked, fun earlier member thread read reads => ?_⟩,
    unrevoked, fun earlier member thread read reads => ?_⟩
  · exact live_earlier (clocks earlier member thread read reads) live
  · have before := clocks earlier member thread read reads
    have made := (SessionRow.live_iff.mp (live_earlier before live)).2.2
    refine SessionRow.live_iff.mpr ⟨unrevoked, ?_, made⟩
    exact Int.lt_of_lt_of_le (Int.sub_lt_self _ service.policy.positive.1) before

/-- What a step does to the user's rows: `change` to each, and one more. -/
structure Moved (service : SessionService) (user : UserId) (events : List (SessionEvent Thread))
    (event : SessionEvent Thread) (change : SessionRow → SessionRow)
    (before after : List SessionRow) (inserted : Option SessionRow) : Prop where
  rows : after = before.map change ++ inserted.toList
  evolves : ∀ row : SessionRow, row.Evolves (change row)
  back : ∀ row ∈ before, row.userId = user →
    service.Current user (events ++ [event]) (change row) → service.Current user events row
  forth : (∀ thread now, ¬ LoginRead user thread now event) → ∀ row ∈ before, row.userId = user →
    service.Current user events row →
    (change row).revokedAt.isSome = true ∨ service.Current user (events ++ [event]) (change row)

/-- A liveness check is at the call's clock. -/
theorem allows_touch {call : SessionCall} {stage : SessionStage} {digest : SecretDigest}
    {now idleCutoff absoluteCutoff : Instant}
    (allowed : service.allows call stage (.touch digest now idleCutoff absoluteCutoff)) :
    idleCutoff = service.policy.idleCutoff now ∧
      absoluteCutoff = service.policy.absoluteCutoff now := by
  cases call with
  | begin user presented at' draws =>
      cases stage with
      | opening => obtain ⟨_, _, ⟨⟩⟩ | ⟨⟨⟩⟩ := allowed
      | evicting stale =>
          cases stale with
          | nil => obtain ⟨_, ⟨⟩, _⟩ := allowed
          | cons => cases allowed
      | checked | owned | replacing | finished | failed => cases allowed
  | authenticate presented at' =>
      cases stage with
      | opening =>
          obtain ⟨_, _, ⟨⟩⟩ | ⟨_, _, ⟨⟩⟩ := allowed
          exact ⟨rfl, rfl⟩
      | checked | owned | replacing | evicting | finished | failed => cases allowed
  | rotate presented at' draws =>
      cases stage with
      | opening =>
          obtain ⟨_, _, ⟨⟩⟩ := allowed
          exact ⟨rfl, rfl⟩
      | checked | owned => obtain ⟨_, _, ⟨⟩⟩ := allowed
      | replacing => obtain ⟨_, ⟨⟩, _⟩ := allowed
      | evicting | finished | failed => cases allowed
  | logOut presented at' =>
      cases stage with
      | opening => obtain ⟨_, _, ⟨⟩⟩ := allowed
      | checked | owned | replacing | evicting | finished | failed => cases allowed
  | logOutEverywhere user at' =>
      cases stage with
      | opening => cases allowed
      | checked | owned | replacing | evicting | finished | failed => cases allowed

/-- **What a step that comes between no login and what it read does to the user's
rows.** -/
theorem moved {world : SessionWorld Thread} {thread : Thread} {call : SessionCall}
    {stage : SessionStage} {statement : SessionSql}
    {did : Option (Except DatabaseErrorKind statement.Reply)}
    {told : Except DatabaseErrorKind statement.Reply} {after : List SessionRow}
    (performs : ∃ fate, service.calls.perform fate statement world.store = (did, told, after))
    (allowed : service.allows call stage statement)
    (meets : service.LoginsApart user (events, world) (.ran thread call statement did)) :
    ∃ change, service.Moved user events (.ran thread call statement did) change world.store after
      (did.bind statement.inserted) := by
  obtain ⟨_, rfl, rfl⟩ | ⟨rfl, _, rfl⟩ := performed performs
  · exact ⟨fun row => row, by simp, .refl, fun row _ _ current => current.of_append,
      fun unread row _ _ current => .inr (current.append unread)⟩
  · refine ⟨statement.change, statement.run_rows world.store, statement.change_evolves, ?_, ?_⟩
    · intro row member owned current
      obtain same | revoked | ⟨now, idleCutoff, absoluteCutoff, rfl, live, _⟩ :=
        statement.change_cases row
      · rw [same] at current
        exact current.of_append
      · rw [current.1] at revoked
        cases revoked
      · obtain ⟨rfl, rfl⟩ := allows_touch allowed
        exact (current_of_live (meets.clocks _ _ _ _ _ _ _ rfl ⟨row, member, rfl, owned, live⟩)
          live).1
    · intro unread row member owned current
      obtain same | revoked | ⟨now, idleCutoff, absoluteCutoff, rfl, live, refreshed⟩ :=
        statement.change_cases row
      · rw [same]
        exact .inr (current.append unread)
      · exact .inl revoked
      · obtain ⟨rfl, rfl⟩ := allows_touch allowed
        rw [refreshed]
        have clocks := meets.clocks _ _ _ _ _ _ _ rfl ⟨row, member, rfl, owned, live⟩
        exact .inr ((current_of_live clocks live).2.append unread)

/-- The handles read back are the rows'. -/
theorem handles_map {rows : List SessionRow} {live : List SessionHandle}
    (read : SqlxSessionRepository.handles
      (rows.map fun row => (row.tokenHash.bytes, row.lastSeenAt)) = .ok live) :
    live.map SessionHandle.digest = rows.map SessionRow.tokenHash := by
  induction rows generalizing live with
  | nil =>
      cases read
      rfl
  | cons row rows ih =>
      unfold SqlxSessionRepository.handles at read
      rw [List.map_cons] at read
      dsimp only at read
      rw [digestFrom_bytes] at read
      cases others : SqlxSessionRepository.handles
          (rows.map fun row => (row.tokenHash.bytes, row.lastSeenAt)) with
      | error kind =>
          rw [others] at read
          cases read
      | ok rest =>
          rw [others] at read
          cases read
          rw [List.map_cons, List.map_cons, ih others]

/-- **A login leaves room for its own session** among the live ones it read. -/
theorem room_read {rows : List SessionRow} {idleCutoff absoluteCutoff : Instant}
    {columns : List (List Byte × Instant)} {digests : List SecretDigest}
    (ran : (SessionSql.run (.liveFor user idleCutoff absoluteCutoff) rows).1 = .ok columns)
    (reads : service.readStage columns = .evicting digests) :
    countOf (fun row => row.tokenHash ∉ digests ∧
      (row.userId = user && row.live idleCutoff absoluteCutoff) = true) rows <
        service.policy.concurrent := by
  obtain rfl := Except.ok.inj ran
  let live := rows.filter fun row => row.userId = user && row.live idleCutoff absoluteCutoff
  have sorted : (live.mergeSort fun row other => row.lastSeenAt ≤ other.lastSeenAt).Perm live :=
    List.mergeSort_perm live _
  rw [← countOf_filter, ← countOf_perm _ sorted]
  revert reads
  show service.readStage ((live.mergeSort fun row other => _).map _) = _ → _
  generalize live.mergeSort (fun row other => row.lastSeenAt ≤ other.lastSeenAt) = ordered
  intro reads
  unfold readStage at reads
  split at reads
  next handles read =>
    obtain rfl := SessionStage.evicting.inj reads
    have same := handles_map read
    have length : handles.length = ordered.length := by
      rw [← List.length_map (f := SessionHandle.digest), same, List.length_map]
    have some := service.policy.some
    unfold stalest
    split
    next few =>
      have all := countOf_le_length (fun row : SessionRow => row.tokenHash ∉ []) ordered
      omega
    next =>
      have rest := countOf_not_mem_take SessionRow.tokenHash
        (handles.length - (service.policy.concurrent - 1)) ordered
      rw [List.map_take, same, ← List.map_take]
      omega
  next => cases reads

/-! ## Logins and rotations under way -/

/-- A login of the user has yet to evict these sessions and store its own. -/
def Chooses (user : UserId) (world : SessionWorld Thread) (stages : Thread → SessionStage)
    (thread : Thread) (digests : List SecretDigest) : Prop :=
  (∃ presented now draws, world.Asks thread (.begin user presented now draws)) ∧
    stages thread = .evicting digests

/-- A rotation of the session has checked it live, and goes on. -/
def Swaps (service : SessionService) (world : SessionWorld Thread)
    (stages : Thread → SessionStage) (thread : Thread) (digest : SecretDigest) : Prop :=
  (∃ presented now draws, world.Asks thread (.rotate presented now draws) ∧
    service.presentedDigest presented = some digest) ∧ (stages thread).Checked

section Updates

variable {world : SessionWorld Thread} {stages : Thread → SessionStage} {thread other : Thread}
  {digest : SecretDigest} {digests : List SecretDigest} {after : List SessionRow}

theorem Exchanging.swaps (exchanging : service.Exchanging world stages thread digest) :
    service.Swaps world stages thread digest := by
  obtain ⟨presented, now, draws, statement, next, user, running, reached, known⟩ := exchanging
  refine ⟨⟨presented, now, draws, ⟨statement, next, running⟩, known⟩, ?_⟩
  rw [reached]
  trivial

theorem Chooses.choosing (chooses : Chooses user world stages thread digests)
    (kept : service.Kept events world stages) : Choosing (events, world) user thread := by
  obtain ⟨⟨presented, now, draws, statement, next, running⟩, reached⟩ := chooses
  exact ⟨presented, now, draws, ⟨statement, next, running⟩,
    (kept.places _ _ _ running).reads _ _ _ _ _ rfl reached⟩

theorem Swaps.swapping (swaps : service.Swaps world stages thread digest)
    (kept : service.Kept events world stages) (owned : SessionRow.Owned world.store digest user) :
    service.Swapping (events, world) user thread := by
  obtain ⟨⟨presented, now, draws, ⟨statement, next, running⟩, known⟩, reached⟩ := swaps
  exact ⟨presented, now, draws, digest, ⟨statement, next, running⟩, known, owned,
    ((kept.places _ _ _ running).touches _ _ _ rfl reached).2⟩

variable [DecidableEq Thread]

theorem asks_update {call called : SessionCall} {script : Serving SessionAnswer}
    (asks : SessionWorld.Asks
      ⟨after, Function.update world.running thread (some (call, script))⟩ other called) :
    other ≠ thread ∧ world.Asks other called ∨ other = thread ∧ called = call := by
  obtain ⟨statement, next, running⟩ := asks
  change Function.update world.running thread _ other = _ at running
  by_cases same : other = thread
  · rw [same, Function.update_self] at running
    obtain ⟨rfl, _⟩ := Prod.mk.inj (Option.some.inj running)
    exact .inr ⟨same, rfl⟩
  · rw [Function.update_of_ne same] at running
    exact .inl ⟨same, statement, next, running⟩

theorem asks_ended {called : SessionCall} (asks : SessionWorld.Asks
      ⟨after, Function.update world.running thread none⟩ other called) :
    world.Asks other called := by
  obtain ⟨statement, next, running⟩ := asks
  change Function.update world.running thread _ other = _ at running
  by_cases same : other = thread
  · rw [same, Function.update_self] at running
    cases running
  · rw [Function.update_of_ne same] at running
    exact ⟨statement, next, running⟩

variable {call : SessionCall} {script : Serving SessionAnswer} {stage : SessionStage}

theorem Chooses.of_update (chooses : Chooses user
      ⟨after, Function.update world.running thread (some (call, script))⟩
      (Function.update stages thread stage) other digests) :
    other ≠ thread ∧ Chooses user world stages other digests ∨
      other = thread ∧ stage = .evicting digests ∧
        ∃ presented now draws, call = .begin user presented now draws := by
  obtain ⟨⟨presented, now, draws, asks⟩, reached⟩ := chooses
  obtain ⟨different, asks⟩ | ⟨rfl, called⟩ := asks_update asks
  · rw [Function.update_of_ne different] at reached
    exact .inl ⟨different, ⟨presented, now, draws, asks⟩, reached⟩
  · rw [Function.update_self] at reached
    exact .inr ⟨rfl, reached, presented, now, draws, called.symm⟩

theorem Swaps.of_update (swaps : service.Swaps
      ⟨after, Function.update world.running thread (some (call, script))⟩
      (Function.update stages thread stage) other digest) :
    other ≠ thread ∧ service.Swaps world stages other digest ∨
      other = thread ∧ stage.Checked ∧ ∃ presented now draws, call = .rotate presented now draws ∧
        service.presentedDigest presented = some digest := by
  obtain ⟨⟨presented, now, draws, asks, known⟩, reached⟩ := swaps
  obtain ⟨different, asks⟩ | ⟨rfl, called⟩ := asks_update asks
  · rw [Function.update_of_ne different] at reached
    exact .inl ⟨different, ⟨presented, now, draws, asks, known⟩, reached⟩
  · rw [Function.update_self] at reached
    exact .inr ⟨rfl, reached, presented, now, draws, called.symm, known⟩

end Updates

/-! ## The bound -/

/-- The session takes up room: it is current, or a rotation is to replace it. -/
def Occupies (service : SessionService) (user : UserId) (events : List (SessionEvent Thread))
    (world : SessionWorld Thread) (stages : Thread → SessionStage) (row : SessionRow) : Prop :=
  row.userId = user ∧ (service.Current user events row ∨
    ∃ thread, service.Exchanging world stages thread row.tokenHash)

/-- A session of the user that is current, and not one to evict. -/
def Stays (service : SessionService) (user : UserId) (events : List (SessionEvent Thread))
    (digests : List SecretDigest) (row : SessionRow) : Prop :=
  row.userId = user ∧ service.Current user events row ∧ row.tokenHash ∉ digests

/-- One login of the user at a time, which has room for its own session, and no
rotation beside it. -/
structure Bounded (service : SessionService) (user : UserId) (events : List (SessionEvent Thread))
    (world : SessionWorld Thread) (stages : Thread → SessionStage) : Prop where
  single : service.Single events world stages
  alone : ∀ first second one two, Chooses user world stages first one →
    Chooses user world stages second two → first = second
  apart : ∀ first second digests digest, Chooses user world stages first digests →
    service.Swaps world stages second digest → ¬ SessionRow.Owned world.store digest user
  stored : ∀ thread digest, service.Swaps world stages thread digest →
    ∃ row ∈ world.store, row.tokenHash = digest
  fresh : ∀ thread digest, service.Swaps world stages thread digest → ∀ row ∈ world.store,
    row.tokenHash = digest → row.userId = user →
    row.revokedAt.isSome = true ∨ service.Current user events row
  room : ∀ thread digests, Chooses user world stages thread digests →
    countOf (service.Stays user events digests) world.store < service.policy.concurrent
  bound : countOf (service.Occupies user events world stages) world.store ≤
    service.policy.concurrent

/-- A step that runs no statement. -/
theorem Bounded.idle {world : SessionWorld Thread} {stages reached : Thread → SessionStage}
    {running : Thread → Option (SessionCall × Serving SessionAnswer)}
    (bounded : service.Bounded user events world stages)
    (unread : ∀ thread now, ¬ LoginRead user thread now event)
    (chooses : ∀ thread digests, Chooses user ⟨world.store, running⟩ reached thread digests →
      Chooses user world stages thread digests)
    (swaps : ∀ thread digest, service.Swaps ⟨world.store, running⟩ reached thread digest →
      service.Swaps world stages thread digest)
    (exchanges : ∀ thread digest,
      service.Exchanging ⟨world.store, running⟩ reached thread digest →
      service.Exchanging world stages thread digest)
    (single : service.Single (events ++ [event]) ⟨world.store, running⟩ reached) :
    service.Bounded user (events ++ [event]) ⟨world.store, running⟩ reached where
  single := single
  alone first second one two left right :=
    bounded.alone first second one two (chooses _ _ left) (chooses _ _ right)
  apart first second digests digest left right :=
    bounded.apart first second digests digest (chooses _ _ left) (swaps _ _ right)
  stored thread digest here := bounded.stored thread digest (swaps _ _ here)
  fresh thread digest here row member same owned :=
    (bounded.fresh thread digest (swaps _ _ here) row member same owned).imp id
      fun current => current.append unread
  room thread digests here := by
    refine lt_of_le_of_lt ?_ (bounded.room thread digests (chooses _ _ here))
    exact countOf_mono fun row _ stays => ⟨stays.1, stays.2.1.of_append, stays.2.2⟩
  bound := by
    refine le_trans ?_ bounded.bound
    refine countOf_mono fun row _ occupies => ⟨occupies.1, ?_⟩
    exact occupies.2.imp Current.of_append fun ⟨thread, here⟩ => ⟨thread, exchanges _ _ here⟩

/-- A rotation that comes to be past its liveness check found its session live. -/
theorem rotate_touched {rows after : List SessionRow} {presented : String} {now : Instant}
    {draws : SessionDraws} {statement : SessionSql} {digest : SecretDigest}
    {did : Option (Except DatabaseErrorKind statement.Reply)}
    {told : Except DatabaseErrorKind statement.Reply}
    (performs : ∃ fate, service.calls.perform fate statement rows = (did, told, after))
    (allowed : service.Touches presented now statement)
    (known : service.presentedDigest presented = some digest)
    (reached : (service.advance (.rotate presented now draws) .opening statement told).Checked) :
    statement = .touch digest now (service.policy.idleCutoff now)
        (service.policy.absoluteCutoff now) ∧
      ∃ row ∈ rows, row.tokenHash = digest ∧
        row.live (service.policy.idleCutoff now) (service.policy.absoluteCutoff now) = true := by
  obtain ⟨_, same, rfl⟩ := allowed
  obtain rfl := Option.some.inj (known.symm.trans same)
  refine ⟨rfl, ?_⟩
  cases told with
  | error kind => cases reached
  | ok affected =>
      obtain ⟨⟨_, ⟨⟩⟩, _, _⟩ | ⟨_, told | ⟨_, ⟨⟩⟩, _⟩ := performed performs
      obtain rfl := Except.ok.inj told
      change (if rows.countP _ = 0 then SessionStage.finished else .checked).Checked at reached
      split at reached
      · cases reached
      next some =>
        obtain ⟨row, member, hit⟩ := List.countP_pos_iff.mp (Nat.pos_of_ne_zero some)
        rw [Bool.and_eq_true] at hit
        exact ⟨row, member, of_decide_eq_true hit.1, hit.2⟩

/-- A statement of a call runs, and comes between no login and what it read. -/
structure Ran (service : SessionService) (user : UserId) (events : List (SessionEvent Thread))
    (world : SessionWorld Thread) (stages : Thread → SessionStage) (thread : Thread)
    (call : SessionCall) (statement : SessionSql)
    (did : Option (Except DatabaseErrorKind statement.Reply))
    (told : Except DatabaseErrorKind statement.Reply) (after : List SessionRow) : Prop where
  bounded : service.Bounded user events world stages
  asks : ∃ next, world.running thread = some (call, .query statement next)
  performs : ∃ fate, service.calls.perform fate statement world.store = (did, told, after)
  allowed : service.allows call (stages thread) statement
  meets : service.LoginsApart user (events, world) (.ran thread call statement did)

namespace Ran

variable {world : SessionWorld Thread} {stages : Thread → SessionStage} {thread other : Thread}
  {call : SessionCall} {statement : SessionSql}
  {did : Option (Except DatabaseErrorKind statement.Reply)}
  {told : Except DatabaseErrorKind statement.Reply} {after : List SessionRow}
  {digest : SecretDigest} {digests : List SecretDigest} {presented : String} {now : Instant}
  {draws : SessionDraws}
  (ran : service.Ran user events world stages thread call statement did told after)

include ran

theorem keyed : SessionRow.Keyed after := by
  obtain ⟨inserted, grows⟩ := performed_grows ran.performs
  exact grows.keyed ran.bounded.single.kept.keyed

/-- A session that was stored is the same user's. -/
theorem owned (stored : ∃ row ∈ world.store, row.tokenHash = digest)
    (owned : SessionRow.Owned after digest user) : SessionRow.Owned world.store digest user := by
  obtain ⟨row, member, same⟩ := stored
  obtain ⟨later, among, hash, own⟩ := owned
  obtain ⟨inserted, grows⟩ := performed_grows ran.performs
  obtain ⟨left, stays, evolves⟩ := grows.kept row member
  obtain rfl := ran.keyed.eq among stays (hash.trans (evolves.tokenHash.trans same).symm)
  exact ⟨row, member, same, evolves.userId.symm.trans own⟩

/-- A login that comes to evict sessions read them, or had one more to evict. -/
theorem began (called : call = .begin user presented now draws)
    (reached : service.advance call (stages thread) statement told = .evicting digests) :
    (LoginRead user thread now (.ran thread call statement did) ∧ after = world.store ∧
      ∃ columns, (SessionSql.run (.liveFor user (service.policy.idleCutoff now)
        (service.policy.absoluteCutoff now)) world.store).1 = .ok columns ∧
        service.readStage columns = .evicting digests) ∨
      ∃ digest, Chooses user world stages thread (digest :: digests) ∧
        after = (SessionSql.run (.revoke digest now) world.store).2 := by
  subst called
  obtain ⟨came, reply, rfl⟩ := begin_evicting ran.allowed reached
  obtain ⟨⟨_, ⟨⟩⟩, _, _⟩ | ⟨rfl, told | ⟨_, ⟨⟩⟩, left⟩ := performed ran.performs
  obtain ⟨opening, rfl⟩ | ⟨digest, earlier, rfl⟩ := came
  · rw [opening] at reached
    exact .inl ⟨⟨presented, draws, _, _, rfl, trivial⟩, left, reply, told.symm, reached⟩
  · obtain ⟨next, at'⟩ := ran.asks
    exact .inr ⟨digest, ⟨⟨presented, now, draws, _, next, at'⟩, earlier⟩, left⟩

/-- A rotation past its liveness check found its session live, or was past it. -/
theorem rotated (called : call = .rotate presented now draws)
    (known : service.presentedDigest presented = some digest)
    (reached : (service.advance call (stages thread) statement told).Checked) :
    (statement = .touch digest now (service.policy.idleCutoff now)
        (service.policy.absoluteCutoff now) ∧ did ≠ none ∧
      ∃ row ∈ world.store, row.tokenHash = digest ∧
        row.live (service.policy.idleCutoff now) (service.policy.absoluteCutoff now) = true) ∨
      service.Swaps world stages thread digest := by
  subst called
  obtain ⟨⟨opening, touches⟩ | earlier, reply, rfl⟩ := rotate_checked ran.allowed reached
  · rw [opening] at reached
    obtain ⟨same, live⟩ := rotate_touched ran.performs touches known reached
    obtain ⟨⟨_, ⟨⟩⟩, _, _⟩ | ⟨did, _, _⟩ := performed ran.performs
    refine .inl ⟨same, ?_, live⟩
    rw [did]
    exact Option.some_ne_none _
  · obtain ⟨next, at'⟩ := ran.asks
    exact .inr ⟨⟨presented, now, draws, ⟨statement, next, at'⟩, known⟩, earlier⟩

theorem rotated_stored (called : call = .rotate presented now draws)
    (known : service.presentedDigest presented = some digest)
    (reached : (service.advance call (stages thread) statement told).Checked) :
    ∃ row ∈ world.store, row.tokenHash = digest := by
  obtain ⟨_, _, row, member, same, _⟩ | swaps := ran.rotated called known reached
  · exact ⟨row, member, same⟩
  · exact ran.bounded.stored thread digest swaps

/-- A row of a stored session is one that was there, as the step left it. -/
theorem origin {change : SessionRow → SessionRow} {inserted : Option SessionRow}
    {event : SessionEvent Thread}
    (moved : service.Moved user events event change world.store after inserted)
    (stored : ∃ row ∈ world.store, row.tokenHash = digest) {row : SessionRow} (member : row ∈ after)
    (same : row.tokenHash = digest) : ∃ before ∈ world.store, row = change before := by
  obtain ⟨before, among, hash⟩ := stored
  have left : change before ∈ after := by
    rw [moved.rows]
    exact List.mem_append_left _ (List.mem_map_of_mem among)
  exact ⟨before, among, ran.keyed.eq member left
    (same.trans (((moved.evolves before).tokenHash).trans hash).symm)⟩

variable [DecidableEq Thread] {script : Serving SessionAnswer} {first second : Thread}
  {one two : List SecretDigest}
  {next : Except DatabaseErrorKind statement.Reply → Serving SessionAnswer}

theorem alone_after (left : Chooses user
      ⟨after, Function.update world.running thread (some (call, script))⟩
      (Function.update stages thread (service.advance call (stages thread) statement told)) first
      one)
    (right : Chooses user ⟨after, Function.update world.running thread (some (call, script))⟩
      (Function.update stages thread (service.advance call (stages thread) statement told)) second
      two) : first = second := by
  have kept := ran.bounded.single.kept
  have cross : ∀ {other : Thread} {digests mine : List SecretDigest}, other ≠ thread →
      Chooses user world stages other digests →
      service.advance call (stages thread) statement told = .evicting mine →
      (∃ presented now draws, call = .begin user presented now draws) → False := by
    rintro other digests mine different chooses reached ⟨presented, now, draws, called⟩
    obtain ⟨reads, _⟩ | ⟨digest, choosing, _⟩ := ran.began called reached
    · exact (ran.meets.alone thread now reads other different).1 (chooses.choosing kept)
    · exact different (ran.bounded.alone other thread _ _ chooses choosing)
  obtain ⟨different, chose⟩ | ⟨rfl, reached, called⟩ := left.of_update
  · obtain ⟨_, chooses⟩ | ⟨rfl, reached, called⟩ := right.of_update
    · exact ran.bounded.alone first second one two chose chooses
    · exact (cross different chose reached called).elim
  · obtain ⟨different, chose⟩ | ⟨rfl, _⟩ := right.of_update
    · exact (cross different chose reached called).elim
    · rfl

theorem apart_after (chooses : Chooses user
      ⟨after, Function.update world.running thread (some (call, script))⟩
      (Function.update stages thread (service.advance call (stages thread) statement told)) first
      one)
    (swaps : service.Swaps ⟨after, Function.update world.running thread (some (call, script))⟩
      (Function.update stages thread (service.advance call (stages thread) statement told)) second
      digest) : ¬ SessionRow.Owned after digest user := by
  intro owned
  have kept := ran.bounded.single.kept
  obtain ⟨_, chose⟩ | ⟨rfl, reached, _, now, _, called⟩ := chooses.of_update
  · obtain ⟨_, swapped⟩ | ⟨rfl, reached, presented, now, draws, called, known⟩ := swaps.of_update
    · exact ran.bounded.apart first second one digest chose swapped
        (ran.owned (ran.bounded.stored second digest swapped) owned)
    · have before := ran.owned (ran.rotated_stored called known reached) owned
      obtain ⟨touches, ran', live, listed, same, alive⟩ | swapped :=
        ran.rotated called known reached
      · obtain ⟨reply, rfl⟩ := Option.ne_none_iff_exists'.mp ran'
        obtain ⟨row, among, hash, mine⟩ := before
        obtain rfl := kept.keyed.eq among listed (hash.trans same.symm)
        subst called touches
        exact ran.meets.apart _ _ _ _ _ _ _ _ _ rfl ⟨row, among, hash, mine, alive⟩ first
          (chose.choosing kept)
      · exact ran.bounded.apart first second one digest chose swapped before
  · obtain ⟨different, swapped⟩ | ⟨rfl, _, _, _, _, called', _⟩ := swaps.of_update
    · have before := ran.owned (ran.bounded.stored second digest swapped) owned
      obtain ⟨reads, _⟩ | ⟨_, choosing, _⟩ := ran.began called reached
      · exact (ran.meets.alone first now reads second different).2 (swapped.swapping kept before)
      · exact ran.bounded.apart first second _ digest choosing swapped before
    · cases called.symm.trans called'

theorem stored_after (swaps : service.Swaps
      ⟨after, Function.update world.running thread (some (call, script))⟩
      (Function.update stages thread (service.advance call (stages thread) statement told)) first
      digest) : ∃ row ∈ world.store, row.tokenHash = digest := by
  obtain ⟨_, swaps⟩ | ⟨rfl, reached, presented, now, draws, called, known⟩ := swaps.of_update
  · exact ran.bounded.stored first digest swaps
  · exact ran.rotated_stored called known reached

theorem fresh_after (swaps : service.Swaps
      ⟨after, Function.update world.running thread (some (call, script))⟩
      (Function.update stages thread (service.advance call (stages thread) statement told)) first
      digest) {row : SessionRow} (member : row ∈ after) (same : row.tokenHash = digest)
    (owned : row.userId = user) : row.revokedAt.isSome = true ∨
      service.Current user (events ++ [.ran thread call statement did]) row := by
  have kept := ran.bounded.single.kept
  obtain ⟨change, moved⟩ := service.moved ran.performs ran.allowed ran.meets
  obtain ⟨before, among, rfl⟩ := ran.origin moved (ran.stored_after swaps) member same
  have evolves := moved.evolves before
  have hash := evolves.tokenHash.symm.trans same
  have mine := evolves.userId.symm.trans owned
  -- the session was revoked or current before, and no login read since
  have onward : (∀ thread' now, ¬ LoginRead user thread' now (.ran thread call statement did)) →
      before.revokedAt.isSome = true ∨ service.Current user events before →
      (change before).revokedAt.isSome = true ∨
        service.Current user (events ++ [.ran thread call statement did]) (change before) := by
    rintro unread (revoked | current)
    · exact .inl (evolves.revoked revoked)
    · exact moved.forth unread before among mine current
  obtain ⟨different, swapped⟩ | ⟨rfl, reached, presented, now, draws, called, known⟩ :=
    swaps.of_update
  · refine onward ?_ (ran.bounded.fresh first digest swapped before among hash mine)
    intro reader now reads
    obtain rfl : thread = reader := by
      obtain ⟨_, _, _, _, ⟨⟩, _⟩ := reads
      rfl
    exact (ran.meets.alone thread now reads first different).2
      (swapped.swapping kept ⟨before, among, hash, mine⟩)
  · have unread : ∀ reader now, ¬ LoginRead user reader now (.ran first call statement did) := by
      rintro reader now ⟨_, _, _, _, ⟨⟩, _⟩
      cases called
    obtain ⟨rfl, ran', live, listed, same', alive⟩ | swapped := ran.rotated called known reached
    · obtain ⟨reply, rfl⟩ := Option.ne_none_iff_exists'.mp ran'
      obtain rfl := kept.keyed.eq among listed (hash.trans same'.symm)
      have clocks := ran.meets.clocks _ _ _ _ _ _ _ rfl ⟨before, among, hash, mine, alive⟩
      exact onward unread (.inr (current_of_live clocks alive).1)
    · exact onward unread (ran.bounded.fresh first digest swapped before among hash mine)

omit [DecidableEq Thread] in
/-- A session is stored by a login that has evicted what it had to, or for one that
a rotation exchanges. -/
theorem inserts {row : SessionRow} (inserted : did.bind statement.inserted = some row) :
    Chooses row.userId world stages thread [] ∨
      ∃ digest, service.Exchanging world stages thread digest ∧
        SessionRow.Owned world.store digest row.userId := by
  obtain ⟨reply, rfl, inserted⟩ := Option.bind_eq_some_iff.mp inserted
  obtain rfl : statement = .insert row := by
    cases statement with
    | insert =>
        cases reply with
        | ok => exact congrArg SessionSql.insert (Option.some.inj inserted)
        | error => cases inserted
    | touch | owner | revoke | revokeAll | liveFor => cases reply <;> cases inserted
  obtain ⟨next, at'⟩ := ran.asks
  have placed := ran.bounded.single.kept.places _ _ _ at'
  have allowed := ran.allowed
  generalize reached : stages thread = stage at allowed placed
  cases call with
  | begin user presented now draws =>
      cases stage with
      | opening => obtain ⟨_, _, ⟨⟩⟩ | ⟨⟨⟩⟩ := allowed
      | evicting stale =>
          cases stale with
          | nil =>
              obtain ⟨_, same, made⟩ := allowed
              obtain rfl := SessionSql.insert.inj same
              rw [made.1]
              exact .inl ⟨⟨presented, now, draws, _, next, at'⟩, reached⟩
          | cons => cases allowed
      | checked | owned | replacing | finished | failed => cases allowed
  | rotate presented now draws =>
      obtain ⟨user, rfl, made⟩ := allows_insert allowed
      obtain ⟨⟨digest, known⟩, _⟩ := placed.touches _ _ _ rfl trivial
      obtain ⟨old, member, same, owned⟩ := placed.owner _ _ _ rfl digest user known (.inr rfl)
      exact .inr ⟨digest, ⟨presented, now, draws, _, next, user, at', reached, known⟩,
        old, member, same, owned.trans made.1.symm⟩
  | authenticate presented now =>
      cases stage with
      | opening => obtain ⟨_, _, ⟨⟩⟩ | ⟨_, _, ⟨⟩⟩ := allowed
      | checked | owned | replacing | evicting | finished | failed => cases allowed
  | logOut presented now =>
      cases stage with
      | opening => obtain ⟨_, _, ⟨⟩⟩ := allowed
      | checked | owned | replacing | evicting | finished | failed => cases allowed
  | logOutEverywhere user now =>
      cases stage with
      | opening => cases allowed
      | checked | owned | replacing | evicting | finished | failed => cases allowed

theorem room_after (chooses : Chooses user
      ⟨after, Function.update world.running thread (some (call, script))⟩
      (Function.update stages thread (service.advance call (stages thread) statement told)) first
      one) : countOf (service.Stays user (events ++ [.ran thread call statement did]) one) after <
        service.policy.concurrent := by
  obtain ⟨different, chose⟩ | ⟨rfl, reached, presented, now, draws, called⟩ := chooses.of_update
  · obtain ⟨change, moved⟩ := service.moved ran.performs ran.allowed ran.meets
    have foreign : ∀ row ∈ (did.bind statement.inserted).toList, row.userId ≠ user := by
      rintro row member rfl
      obtain storing | ⟨digest, exchanging, owned⟩ := ran.inserts (Option.mem_toList.mp member)
      · exact different (ran.bounded.alone first thread _ _ chose storing)
      · exact ran.bounded.apart first thread one digest chose exchanging.swaps owned
    have none : countOf (service.Stays user (events ++ [.ran thread call statement did]) one)
        (did.bind statement.inserted).toList = 0 :=
      countOf_eq_zero fun row member stays => foreign row member stays.1
    rw [moved.rows, countOf_append, none, countOf_map]
    refine lt_of_le_of_lt (countOf_mono ?_) (ran.bounded.room first one chose)
    rintro row member ⟨owned, current, stays⟩
    have evolves := moved.evolves row
    have mine := evolves.userId.symm.trans owned
    rw [evolves.tokenHash] at stays
    exact ⟨mine, moved.back row member mine current, stays⟩
  · obtain ⟨reads, rfl, columns, read, stage⟩ | ⟨digest, chose, left⟩ := ran.began called reached
    · refine lt_of_le_of_lt (countOf_mono ?_) (room_read read stage)
      rintro row _ ⟨owned, current, stays⟩
      refine ⟨stays, ?_⟩
      rw [Bool.and_eq_true]
      exact ⟨decide_eq_true owned, current.2 _ (by simp) first now reads⟩
    · obtain ⟨change, moved⟩ := service.moved ran.performs ran.allowed ran.meets
      have none : did.bind statement.inserted = none := by
        cases inserted : did.bind statement.inserted with
        | none => rfl
        | some row =>
            obtain storing | ⟨_, exchanging, _⟩ := ran.inserts inserted
            · cases storing.2.symm.trans chose.2
            · obtain ⟨_, _, _, _, _, _, _, replacing, _⟩ := exchanging
              cases replacing.symm.trans chose.2
      have rows := moved.rows
      rw [none, Option.toList_none, List.append_nil] at rows
      rw [rows, countOf_map]
      refine lt_of_le_of_lt (countOf_mono ?_) (ran.bounded.room first _ chose)
      rintro row member ⟨owned, current, stays⟩
      have evolves := moved.evolves row
      have mine := evolves.userId.symm.trans owned
      rw [evolves.tokenHash] at stays
      refine ⟨mine, moved.back row member mine current, ?_⟩
      rintro (evicted | later)
      · have among : change row ∈ (SessionSql.run (.revoke row.tokenHash now) world.store).2 := by
          rw [← left, rows]
          exact List.mem_map_of_mem member
        have revoked := SessionSql.revoke_revoked among evolves.tokenHash
        rw [current.1] at revoked
        cases revoked
      · exact stays (by assumption)

/-- A session that takes up room after the step did so before it. -/
theorem occupied {change : SessionRow → SessionRow} {inserted : Option SessionRow}
    (moved : service.Moved user events (.ran thread call statement did) change world.store after
      inserted) {row : SessionRow} (member : row ∈ world.store)
    (occupies : service.Occupies user (events ++ [.ran thread call statement did])
      ⟨after, Function.update world.running thread (some (call, next told))⟩
      (Function.update stages thread (service.advance call (stages thread) statement told))
      (change row)) : service.Occupies user events world stages row := by
  have evolves := moved.evolves row
  have mine := evolves.userId.symm.trans occupies.1
  refine ⟨mine, ?_⟩
  obtain current | ⟨other, exchanging⟩ := occupies.2
  · exact .inl (moved.back row member mine current)
  · rw [evolves.tokenHash] at exchanging
    obtain ⟨_, before⟩ | ⟨⟨_, ⟨presented, now, draws, rfl, known⟩, checked⟩, _, _, live, among, same,
      unrevoked⟩ := exchanging.of_ran ran.performs ran.allowed
    · exact .inr ⟨other, before⟩
    · obtain rfl := ran.bounded.single.kept.keyed.eq member among same.symm
      obtain ⟨rest, at'⟩ := ran.asks
      obtain revoked | current := ran.bounded.fresh thread row.tokenHash
        ⟨⟨presented, now, draws, ⟨statement, rest, at'⟩, known⟩, checked⟩ row member rfl mine
      · rw [unrevoked] at revoked
        cases revoked
      · exact .inl current

theorem bound_after : countOf (service.Occupies user (events ++ [.ran thread call statement did])
      ⟨after, Function.update world.running thread (some (call, next told))⟩
      (Function.update stages thread (service.advance call (stages thread) statement told))) after ≤
    service.policy.concurrent := by
  have single := ran.bounded.single
  obtain ⟨change, moved⟩ := service.moved ran.performs ran.allowed ran.meets
  have weaker : ∀ row ∈ world.store, service.Occupies user
      (events ++ [.ran thread call statement did])
      ⟨after, Function.update world.running thread (some (call, next told))⟩
      (Function.update stages thread (service.advance call (stages thread) statement told))
      (change row) → service.Occupies user events world stages row :=
    fun row member => ran.occupied moved member
  generalize taken : service.Occupies user (events ++ [.ran thread call statement did]) ⟨after, _⟩
    (Function.update stages thread _) = takes at weaker ⊢
  rw [moved.rows, countOf_append, countOf_map]
  cases inserted : did.bind statement.inserted with
  | none =>
      have none : countOf takes Option.none.toList = 0 :=
        countOf_eq_zero fun row member => by cases member
      rw [none, Nat.add_zero]
      exact (countOf_mono weaker).trans ran.bounded.bound
  | some new =>
      rw [Option.toList_some]
      by_cases own : new.userId = user
      · refine le_trans (Nat.add_le_add_left (countOf_le_length takes [new]) _)
          (Nat.succ_le_of_lt ?_)
        obtain storing | ⟨digest, exchanging, old, member, same, owned⟩ := ran.inserts inserted
        · rw [own] at storing
          refine lt_of_le_of_lt (countOf_mono ?_) (ran.bounded.room thread [] storing)
          intro row member occupies
          obtain ⟨mine, current | ⟨other, exchanging⟩⟩ := weaker row member occupies
          · exact ⟨mine, current, List.not_mem_nil⟩
          · exact (ran.bounded.apart thread other [] _ storing exchanging.swaps
              ⟨row, member, rfl, mine⟩).elim
        · refine lt_of_lt_of_le (countOf_lt weaker member ?_ ?_) ran.bounded.bound
          · rw [← same] at exchanging
            exact ⟨owned.trans own, .inr ⟨thread, exchanging⟩⟩
          · have revoked := single.revoked thread digest exchanging
            rw [← taken]
            rintro ⟨_, current | ⟨other, again⟩⟩
            · have before := moved.back old member (owned.trans own) current
              exact revoked.not_live single.kept.keyed ⟨old, member, same, before.1⟩
            · rw [(moved.evolves old).tokenHash, same] at again
              obtain ⟨different, again⟩ | ⟨_, _, _, live⟩ := again.of_ran ran.performs ran.allowed
              · exact different (single.alone other thread digest again exchanging)
              · exact revoked.not_live single.kept.keyed live
      · have none : countOf takes [new] = 0 := by
          refine countOf_eq_zero fun row member occupies => own ?_
          rw [← taken] at occupies
          rw [← List.mem_singleton.mp member]
          exact occupies.1
        rw [none, Nat.add_zero]
        exact (countOf_mono weaker).trans ran.bounded.bound

end Ran

/-- **Every run keeps it** whose steps come between no login of the user and what
it read. -/
theorem bounded_keeps [DecidableEq Thread] :
    service.staging.Keeps (@LoginsApart Thread service user) (service.Bounded user) where
  started := by
    intro events before stages thread call bounded idle meets
    apply bounded.idle
    · rintro _ _ ⟨_, _, _, _, ⟨⟩, _⟩
    · intro other digests chooses
      obtain ⟨_, chose⟩ | ⟨_, ⟨⟩, _⟩ := chooses.of_update
      exact chose
    · intro other digest swaps
      obtain ⟨_, swapped⟩ | ⟨_, ⟨⟩, _⟩ := swaps.of_update
      exact swapped
    · exact fun _ _ exchanging => exchanging.of_started
    · exact (single_keeps _).started bounded.single idle meets
  ran := by
    intro events before stages thread call statement next did told after bounded conforming at'
      performs meets allowed
    have ran : service.Ran user events before stages thread call statement did told after :=
      ⟨bounded, ⟨next, at'⟩, performs, allowed, meets⟩
    obtain ⟨_, grows⟩ := performed_grows performs
    exact {
      single := (single_keeps _).ran bounded.single conforming at' performs meets allowed
      alone := fun _ _ _ _ left right => ran.alone_after left right
      apart := fun _ _ _ _ chooses swaps => ran.apart_after chooses swaps
      stored := fun _ _ swaps => by
        obtain ⟨row, member, same⟩ := ran.stored_after swaps
        obtain ⟨later, among, evolves⟩ := grows.kept row member
        exact ⟨later, among, evolves.tokenHash.trans same⟩
      fresh := fun _ _ swaps _ member same owned => ran.fresh_after swaps member same owned
      room := fun _ _ chooses => ran.room_after chooses
      bound := ran.bound_after }
  returned := by
    intro events before stages thread call result bounded at' meets ends
    apply bounded.idle
    · rintro _ _ ⟨_, _, _, _, ⟨⟩, _⟩
    · exact fun _ _ ⟨⟨presented, now, draws, asks⟩, reached⟩ =>
        ⟨⟨presented, now, draws, asks_ended asks⟩, reached⟩
    · exact fun _ _ ⟨⟨presented, now, draws, asks, known⟩, reached⟩ =>
        ⟨⟨presented, now, draws, asks_ended asks, known⟩, reached⟩
    · exact fun _ _ exchanging => exchanging.of_ended
    · exact (single_keeps _).returned bounded.single at' meets ends
  cancelled := by
    intro events before stages thread call script bounded at' meets
    apply bounded.idle
    · rintro _ _ ⟨_, _, _, _, ⟨⟩, _⟩
    · exact fun _ _ ⟨⟨presented, now, draws, asks⟩, reached⟩ =>
        ⟨⟨presented, now, draws, asks_ended asks⟩, reached⟩
    · exact fun _ _ ⟨⟨presented, now, draws, asks, known⟩, reached⟩ =>
        ⟨⟨presented, now, draws, asks_ended asks, known⟩, reached⟩
    · exact fun _ _ exchanging => exchanging.of_ended
    · exact (single_keeps _).cancelled bounded.single at' meets

theorem bounded_initial :
    service.Bounded user [] ⟨[], fun _ : Thread => none⟩ fun _ => .opening where
  single := single_initial
  alone := by rintro _ _ _ _ ⟨_, ⟨⟩⟩
  apart := by rintro _ _ _ _ ⟨_, ⟨⟩⟩
  stored := by rintro _ _ ⟨_, ⟨⟩⟩
  fresh := by rintro _ _ ⟨_, ⟨⟩⟩
  room := by rintro _ _ ⟨_, ⟨⟩⟩
  bound := Nat.zero_le _

end SessionService

open SessionService in
/-- **A session is replaced at most once, and where logins are apart a subject never holds more
than the bound.** The first half holds however calls interleave; the second is about the runs in
which no step comes between a login of the subject and what it read. -/
theorem sessions_bounded [DecidableEq Thread] (service : SessionService) :
    (∀ first last (events : List (SessionEvent Thread)), service.calls.system.Initial first →
      service.calls.system.Run first events last →
      events.Pairwise fun event later =>
        ∀ old new other, service.Replaced old new event → ¬ service.Replaced old other later) ∧
    ∀ user first last (events : List (SessionEvent Thread)),
      (service.calls.system.recorded.restrict (service.LoginsApart user)).Initial first →
      (service.calls.system.recorded.restrict (service.LoginsApart user)).Run first events last →
      ∀ now, (∀ event ∈ events, ∀ thread read, LoginRead user thread read event → read ≤ now) →
      last.2.store.countP (fun row => row.userId = user &&
        row.live (service.policy.idleCutoff now) (service.policy.absoluteCutoff now)) ≤
        service.policy.concurrent := by
  constructor
  · intro first last events initial run
    obtain rfl : first = ⟨[], fun _ => none⟩ := initial
    have free : (service.calls.system.restrict fun _ _ => True).Run _ events last :=
      run.restrict_labels fun _ _ _ => trivial
    have conforming := service.staging.conforming_initial fun _ : Thread => SessionStage.opening
    obtain ⟨_, _, single⟩ := (single_keeps _).run (free.recorded []) conforming single_initial
    exact single.once
  · rintro user ⟨past, first⟩ ⟨all, last⟩ events ⟨rfl, initial⟩ run now clocks
    obtain rfl : first = ⟨[], fun _ => none⟩ := initial
    obtain rfl : all = events := run.of_restrict.of_recorded.2
    have conforming := service.staging.conforming_initial fun _ : Thread => SessionStage.opening
    obtain ⟨_, _, bounded⟩ := bounded_keeps.run run conforming bounded_initial
    rw [← countOf_decide]
    refine (countOf_mono fun row _ counts => ?_).trans bounded.bound
    rw [Bool.and_eq_true] at counts
    refine ⟨of_decide_eq_true counts.1, .inl ⟨(SessionRow.live_iff.mp counts.2).1, ?_⟩⟩
    exact fun event member thread read reads =>
      live_earlier (clocks event member thread read reads) counts.2

open SessionSample in
/-- Two logins of a user who may hold one session read the live ones before either
stores its own, and leave two. -/
theorem logins_overlap : ¬ ∀ first last (events : List (SessionEvent Bool)),
    service.calls.system.Initial first → service.calls.system.Run first events last →
    (∀ thread, last.running thread = none) →
    ∀ now, (∀ event ∈ events, ∀ user thread read, LoginRead user thread read event → read ≤ now) →
    ∀ user, last.store.countP (fun row => row.userId = user &&
      row.live (service.policy.idleCutoff now) (service.policy.absoluteCutoff now)) ≤
      service.policy.concurrent := by
  intro bounded
  let other : SessionCall := .begin user "" 0 (draws 2)
  let start : SessionWorld Bool := ⟨[], fun _ => none⟩
  let moves : List (Move Bool SessionCall DatabaseErrorKind) :=
    [.start false login, .start true other, .proceed false .works, .proceed true .works,
      .proceed false .works, .proceed true .works, .proceed false .works, .proceed true .works]
  let reading : SessionSql :=
    .liveFor user (service.policy.idleCutoff 0) (service.policy.absoluteCutoff 0)
  have run : service.calls.system.Run start
      [.started false login, .started true other,
        .ran false login reading (some (.ok [])), .ran true other reading (some (.ok [])),
        .ran false login (.insert (row 1 ones)) (some (.ok ())),
        .ran true other (.insert (row 2 twos)) (some (.ok ())),
        .returned false login (.ok (.begun (library.issue (secret 1) ⟨.lax⟩ (.minutes 720))
          ⟨false, 0⟩)),
        .returned true other (.ok (.begun (library.issue (secret 2) ⟨.lax⟩ (.minutes 720))
          ⟨false, 0⟩))]
      (service.calls.reach start moves) := by
    apply Service.play_run moves
    with_unfolding_all rfl
  have idle : ∀ thread, (service.calls.reach start moves).running thread = none := by
    intro thread
    cases thread <;> with_unfolding_all rfl
  refine absurd (bounded _ _ _ rfl run idle 0 ?_ user) (by decide +kernel)
  rintro _ member user thread read ⟨presented, draws, statement, reply, rfl, _⟩
  simp only [List.mem_cons, List.not_mem_nil, or_false, reduceCtorEq, false_or, Event.ran.injEq]
    at member
  obtain ⟨_, called, _⟩ | ⟨_, called, _⟩ | ⟨_, called, _⟩ | ⟨_, called, _⟩ := member
  all_goals
    change SessionCall.begin _ _ _ _ = SessionCall.begin _ _ _ _ at called
    cases called
    exact le_refl _

end Renvor
