import Renvor.Auth.SessionRows

/-! # What every run of the session service keeps

Where each call is, and who the rotations that stored a replacement did so for
(`Renvor.SessionService.run_keeps`).
-/

namespace Renvor

open Foundation
open Foundation.Interleaving (Script)
open Foundation.Concurrent (Event World Service Staging Conforms Places RanSince)

abbrev SessionEvent (Thread : Type) := Event Thread SessionSql SessionSql.Reply DatabaseErrorKind
  SessionCall ServiceError SessionAnswer

abbrev SessionWorld (Thread : Type) := World Thread (List SessionRow) SessionSql SessionSql.Reply
  DatabaseErrorKind SessionCall ServiceError SessionAnswer

variable {Thread : Type}

/-- The statement reads the live sessions. -/
def SessionSql.Reads : SessionSql → Prop
  | liveFor .. => True
  | _ => False

/-- The statement checks that a session is live. -/
def SessionSql.Touches : SessionSql → Prop
  | touch .. => True
  | _ => False

/-- A rotation past its liveness check. -/
def SessionStage.Checked : SessionStage → Prop
  | checked | owned _ | replacing _ => True
  | _ => False

namespace SessionService

/-- A rotation of a session stored its replacement. -/
def Replaced (service : SessionService) (old new : SecretDigest) (event : SessionEvent Thread) : Prop :=
  ∃ thread presented now draws row,
    event = .ran thread (.rotate presented now draws) (.insert row) (some (.ok ())) ∧
      service.presentedDigest presented = some old ∧ row.tokenHash = new

variable {service : SessionService}

/-- What a rotation may insert. -/
theorem allows_insert {presented : String} {now : Instant} {draws : SessionDraws}
    {stage : SessionStage} {row : SessionRow}
    (allowed : service.allows (.rotate presented now draws) stage (.insert row)) :
    ∃ user, stage = .replacing user ∧ Made user now row := by
  cases stage with
  | replacing user =>
      obtain ⟨_, same, made⟩ := allowed
      obtain rfl := SessionSql.insert.inj same
      exact ⟨user, rfl, made⟩
  | opening => obtain ⟨_, _, ⟨⟩⟩ := allowed
  | checked => obtain ⟨_, _, ⟨⟩⟩ := allowed
  | owned user => obtain ⟨_, _, ⟨⟩⟩ := allowed
  | evicting | finished | failed => cases allowed

/-- Where a call is, given the events and the rows so far. -/
structure Placed (service : SessionService) (events : List (SessionEvent Thread))
    (rows : List SessionRow) (thread : Thread) (call : SessionCall) (stage : SessionStage) :
    Prop where
  owner : ∀ presented now draws, call = .rotate presented now draws → ∀ digest user,
    service.presentedDigest presented = some digest →
    stage = .owned user ∨ stage = .replacing user →
    ∃ row ∈ rows, row.tokenHash = digest ∧ row.userId = user
  swept : ∀ user now, call = .logOutEverywhere user now → stage = .finished →
    RanSince (· = .revokeAll user now) events thread call
  reads : ∀ user presented now draws digests, call = .begin user presented now draws →
    stage = .evicting digests → RanSince SessionSql.Reads events thread call
  touches : ∀ presented now draws, call = .rotate presented now draws → stage.Checked →
    (∃ digest, service.presentedDigest presented = some digest) ∧
      RanSince SessionSql.Touches events thread call

/-- What every run keeps. -/
structure Kept (service : SessionService) (events : List (SessionEvent Thread))
    (world : SessionWorld Thread) (stages : Thread → SessionStage) : Prop where
  keyed : SessionRow.Keyed world.store
  places : Places (service.Placed events world.store) world stages
  replaced : ∀ event ∈ events, ∀ old new, service.Replaced old new event →
    ∃ row ∈ world.store, ∃ other ∈ world.store, row.tokenHash = old ∧ other.tokenHash = new ∧
      row.userId = other.userId

variable {presented : String} {now : Instant} {draws : SessionDraws} {rows : List SessionRow}

/-- A rotation that knows the user of its session has read it from the row. -/
theorem rotate_owner {stage : SessionStage} {statement : SessionSql} {digest : SecretDigest}
    {user : UserId} {told : Except DatabaseErrorKind statement.Reply}
    (allowed : service.allows (.rotate presented now draws) stage statement)
    (known : service.presentedDigest presented = some digest)
    (hears : told = (SessionSql.run statement rows).1 ∨ ∃ kind, told = .error kind)
    (earlier : stage = .owned user ∨ stage = .replacing user →
      ∃ row ∈ rows, row.tokenHash = digest ∧ row.userId = user)
    (reached : service.advance (.rotate presented now draws) stage statement told = .owned user ∨
      service.advance (.rotate presented now draws) stage statement told = .replacing user) :
    ∃ row ∈ rows, row.tokenHash = digest ∧ row.userId = user := by
  cases told with
  | error kind => obtain reached | reached := reached <;> cases reached
  | ok reply =>
      cases stage with
      | opening =>
          obtain ⟨_, _, rfl⟩ := allowed
          obtain reached | reached := reached <;>
          · unfold advance at reached
            dsimp only at reached
            split at reached <;> cases reached
      | checked =>
          obtain ⟨_, same, rfl⟩ := allowed
          obtain rfl := Option.some.inj (known.symm.trans same)
          cases reply with
          | none => obtain reached | reached := reached <;> cases reached
          | some owner =>
              obtain ⟨bytes, createdAt, lastSeenAt⟩ := owner
              change ownedStage (some (bytes, createdAt, lastSeenAt)) = _ ∨
                ownedStage (some (bytes, createdAt, lastSeenAt)) = _ at reached
              unfold ownedStage at reached
              dsimp only at reached
              cases read : userIdFrom bytes with
              | error kind =>
                  rw [read] at reached
                  obtain reached | reached := reached <;> cases reached
              | ok owner =>
                  rw [read] at reached
                  obtain reached | reached := reached
                  · cases reached
                    obtain told | ⟨kind, told⟩ := hears
                    · obtain ⟨row, member, same, columns⟩ := SessionSql.owner_row told.symm
                      refine ⟨row, member, same, Sixteen.bytes_inj.mp ?_⟩
                      exact columns.trans (sixteenFrom_ok read).symm
                    · cases told
                  · cases reached
      | owned owner =>
          obtain ⟨_, _, rfl⟩ := allowed
          change (if reply = 1 then SessionStage.replacing owner else .finished) = _ ∨
            (if reply = 1 then SessionStage.replacing owner else .finished) = _ at reached
          split at reached
          · obtain reached | reached := reached
            · cases reached
            · cases reached
              exact earlier (.inl rfl)
          · obtain reached | reached := reached <;> cases reached
      | replacing owner =>
          obtain ⟨_, rfl, _⟩ := allowed
          obtain reached | reached := reached <;> cases reached
      | evicting | finished | failed => cases allowed

/-- A sweep that comes to its end was told of it. -/
theorem sweep_told {user : UserId} {stage : SessionStage} {statement : SessionSql}
    {told : Except DatabaseErrorKind statement.Reply}
    (allowed : service.allows (.logOutEverywhere user now) stage statement)
    (reached : service.advance (.logOutEverywhere user now) stage statement told = .finished) :
    statement = .revokeAll user now ∧ ∃ reply, told = .ok reply := by
  cases stage with
  | opening =>
      obtain rfl : statement = .revokeAll user now := allowed
      cases told with
      | error kind => cases reached
      | ok reply => exact ⟨rfl, reply, rfl⟩
  | checked | owned | replacing | evicting | finished | failed => cases allowed

/-- A login that comes to evict sessions has read the live ones, or has evicted
one more. -/
theorem begin_evicting {user : UserId} {stage : SessionStage} {statement : SessionSql}
    {digests : List SecretDigest} {told : Except DatabaseErrorKind statement.Reply}
    (allowed : service.allows (.begin user presented now draws) stage statement)
    (reached : service.advance (.begin user presented now draws) stage statement told =
      .evicting digests) :
    (stage = .opening ∧ statement = .liveFor user (service.policy.idleCutoff now)
        (service.policy.absoluteCutoff now) ∨
      ∃ digest, stage = .evicting (digest :: digests) ∧ statement = .revoke digest now) ∧
      ∃ reply, told = .ok reply := by
  cases told with
  | error kind => cases reached
  | ok reply =>
      refine ⟨?_, reply, rfl⟩
      cases stage with
      | opening =>
          obtain ⟨_, _, rfl⟩ | rfl := allowed
          · cases reached
          · exact .inl ⟨rfl, rfl⟩
      | evicting stale =>
          cases stale with
          | nil =>
              obtain ⟨_, rfl, _⟩ := allowed
              cases reached
          | cons digest rest =>
              obtain rfl : statement = .revoke digest now := allowed
              obtain rfl := SessionStage.evicting.inj reached
              exact .inr ⟨digest, rfl, rfl⟩
      | checked | owned | replacing | finished | failed => cases allowed

/-- A rotation past its liveness check came to it, or was past it. -/
theorem rotate_checked {stage : SessionStage} {statement : SessionSql}
    {told : Except DatabaseErrorKind statement.Reply}
    (allowed : service.allows (.rotate presented now draws) stage statement)
    (reached : (service.advance (.rotate presented now draws) stage statement told).Checked) :
    (stage = .opening ∧ service.Touches presented now statement ∨ stage.Checked) ∧
      ∃ reply, told = .ok reply := by
  cases told with
  | error kind => cases reached
  | ok reply =>
      refine ⟨?_, reply, rfl⟩
      cases stage with
      | opening => exact .inl ⟨rfl, allowed⟩
      | checked | owned | replacing => exact .inr trivial
      | evicting | finished | failed => cases allowed

/-- A known owner stays known. -/
theorem owner_evolves {after : List SessionRow} {inserted : Option SessionRow}
    (grows : SessionRow.Grows inserted rows after) {digest : SecretDigest} {user : UserId}
    (known : ∃ row ∈ rows, row.tokenHash = digest ∧ row.userId = user) :
    ∃ row ∈ after, row.tokenHash = digest ∧ row.userId = user := by
  obtain ⟨row, member, same, owned⟩ := known
  obtain ⟨later, among, evolves⟩ := grows.kept row member
  exact ⟨later, among, evolves.tokenHash.trans same, evolves.userId.trans owned⟩

/-- What an operation of a call did, and what it is told. -/
theorem performed {before : List SessionRow} {statement : SessionSql}
    {did : Option (Except DatabaseErrorKind statement.Reply)}
    {told : Except DatabaseErrorKind statement.Reply} {after : List SessionRow}
    (performs : ∃ fate, service.calls.perform fate statement before = (did, told, after)) :
    ((∃ kind, told = .error kind) ∧ did = none ∧ after = before) ∨
      (did = some (SessionSql.run statement before).1 ∧
        (told = (SessionSql.run statement before).1 ∨ ∃ kind, told = .error kind) ∧
        after = (SessionSql.run statement before).2) := by
  obtain ⟨fate, performs⟩ := performs
  obtain ⟨kind, failed⟩ | ⟨reply, works, hears⟩ :=
    service.calls.perform_cases fate statement before
  · obtain ⟨rfl, rest⟩ := Prod.mk.inj (failed.symm.trans performs)
    obtain ⟨rfl, rfl⟩ := Prod.mk.inj rest
    exact .inl ⟨⟨kind, rfl⟩, rfl, rfl⟩
  · obtain ⟨rfl, rest⟩ := Prod.mk.inj (works.symm.trans performs)
    obtain ⟨rfl, rfl⟩ := Prod.mk.inj rest
    exact .inr ⟨rfl, hears, rfl⟩

theorem performed_grows {before : List SessionRow} {statement : SessionSql}
    {did : Option (Except DatabaseErrorKind statement.Reply)}
    {told : Except DatabaseErrorKind statement.Reply} {after : List SessionRow}
    (performs : ∃ fate, service.calls.perform fate statement before = (did, told, after)) :
    ∃ inserted, SessionRow.Grows inserted before after := by
  obtain ⟨_, _, rfl⟩ | ⟨_, _, rfl⟩ := performed performs
  · exact ⟨none, SessionSql.grows_refl none _⟩
  · exact ⟨_, SessionSql.run_grows statement before⟩

theorem Placed.later {events : List (SessionEvent Thread)} {thread : Thread} {call : SessionCall}
    {stage : SessionStage} {after : List SessionRow} {inserted : Option SessionRow}
    (placed : service.Placed events rows thread call stage) {event : SessionEvent Thread}
    (grows : SessionRow.Grows inserted rows after) (other : ∀ call, event ≠ .started thread call) :
    service.Placed (events ++ [event]) after thread call stage where
  owner presented now draws called digest user known reached :=
    owner_evolves grows (placed.owner presented now draws called digest user known reached)
  swept user now called reached := (placed.swept user now called reached).append other
  reads user presented now draws digests called reached :=
    (placed.reads user presented now draws digests called reached).append other
  touches presented now draws called reached :=
    (placed.touches presented now draws called reached).imp id fun ran => ran.append other

/-- A rotation that stored a replacement did so for the user of its session. -/
theorem replaced_rows {before : List SessionRow} {thread : Thread} {stage : SessionStage}
    {events : List (SessionEvent Thread)} {row : SessionRow} {digest : SecretDigest}
    (placed : service.Placed events before thread (.rotate presented now draws) stage)
    (allowed : service.allows (.rotate presented now draws) stage (.insert row))
    (known : service.presentedDigest presented = some digest)
    (works : (SessionSql.run (.insert row) before).1 = .ok ()) :
    ∃ old ∈ (SessionSql.run (.insert row) before).2,
      ∃ new ∈ (SessionSql.run (.insert row) before).2,
      old.tokenHash = digest ∧ new.tokenHash = row.tokenHash ∧ old.userId = new.userId := by
  obtain ⟨user, rfl, made⟩ := allows_insert allowed
  obtain ⟨old, member, same, owned⟩ := placed.owner _ _ _ rfl digest user known (.inr rfl)
  obtain ⟨_, left, _⟩ | ⟨failed, _⟩ := SessionSql.insert_cases row before
  · rw [left]
    refine ⟨old, List.mem_append_left _ member, row, List.mem_append_right _ ?_, same, rfl,
      owned.trans made.1.symm⟩
    exact List.mem_singleton_self row
  · cases failed.symm.trans works

/-! ## Rotations between revoking and replacing -/

/-- The thread's rotation has revoked a session and has yet to store the
replacement. -/
def Exchanging (service : SessionService) (world : SessionWorld Thread)
    (stages : Thread → SessionStage) (thread : Thread) (digest : SecretDigest) : Prop :=
  ∃ presented now draws statement next user,
    world.running thread = some (.rotate presented now draws, .query statement next) ∧
      stages thread = .replacing user ∧ service.presentedDigest presented = some digest

/-- A rotation that comes to replace its session has revoked it. -/
theorem replacing_revoked {stage : SessionStage} {statement : SessionSql} {digest : SecretDigest}
    {user : UserId} {did : Option (Except DatabaseErrorKind statement.Reply)}
    {told : Except DatabaseErrorKind statement.Reply} {after : List SessionRow}
    (performs : ∃ fate, service.calls.perform fate statement rows = (did, told, after))
    (allowed : service.allows (.rotate presented now draws) stage statement)
    (known : service.presentedDigest presented = some digest)
    (reached : service.advance (.rotate presented now draws) stage statement told =
      .replacing user) :
    stage.Checked ∧ after = (SessionSql.run (.revoke digest now) rows).2 ∧
      ∃ row ∈ rows, row.tokenHash = digest ∧ row.revokedAt = none := by
  cases told with
  | error kind => cases reached
  | ok reply =>
      cases stage with
      | opening =>
          obtain ⟨_, _, rfl⟩ := allowed
          change (if reply = 0 then SessionStage.finished else .checked) = _ at reached
          split at reached <;> cases reached
      | checked =>
          obtain ⟨_, _, rfl⟩ := allowed
          change ownedStage reply = _ at reached
          unfold ownedStage at reached
          split at reached
          · cases reached
          · split at reached <;> cases reached
      | owned owner =>
          obtain ⟨_, same, rfl⟩ := allowed
          obtain rfl := Option.some.inj (known.symm.trans same)
          change (if reply = 1 then SessionStage.replacing owner else .finished) = _ at reached
          split at reached
          next one =>
            obtain ⟨⟨_, ⟨⟩⟩, _, _⟩ | ⟨_, told | ⟨_, ⟨⟩⟩, left⟩ := performed performs
            refine ⟨trivial, left, SessionSql.revoke_one told.symm ?_⟩
            rw [one]
            exact Nat.one_ne_zero
          next => cases reached
      | replacing owner =>
          obtain ⟨_, rfl, _⟩ := allowed
          cases reached
      | evicting | finished | failed => cases allowed

section Updates

variable [DecidableEq Thread] {world : SessionWorld Thread} {stages : Thread → SessionStage}
  {thread other : Thread} {digest : SecretDigest} {after : List SessionRow}

/-- A rotation that exchanges a session after an operation did so before, or the
operation revoked the session for it. -/
theorem Exchanging.of_ran {call : SessionCall} {statement : SessionSql}
    {next : Except DatabaseErrorKind statement.Reply → Serving SessionAnswer}
    {did : Option (Except DatabaseErrorKind statement.Reply)}
    {told : Except DatabaseErrorKind statement.Reply}
    (performs : ∃ fate, service.calls.perform fate statement world.store = (did, told, after))
    (allowed : service.allows call (stages thread) statement)
    (exchanging : service.Exchanging
      ⟨after, Function.update world.running thread (some (call, next told))⟩
      (Function.update stages thread (service.advance call (stages thread) statement told))
      other digest) :
    other ≠ thread ∧ service.Exchanging world stages other digest ∨
      (other = thread ∧ (∃ presented now draws, call = .rotate presented now draws ∧
        service.presentedDigest presented = some digest) ∧ (stages thread).Checked) ∧
        ∃ now, after = (SessionSql.run (.revoke digest now) world.store).2 ∧
          ∃ row ∈ world.store, row.tokenHash = digest ∧ row.revokedAt = none := by
  obtain ⟨presented, now, draws, asked, rest, user, running, reached, known⟩ := exchanging
  change Function.update world.running thread _ other = _ at running
  by_cases same : other = thread
  · rw [same, Function.update_self] at running reached
    obtain ⟨rfl, _⟩ := Prod.mk.inj (Option.some.inj running)
    obtain ⟨checked, revoked⟩ := replacing_revoked performs allowed known reached
    exact .inr ⟨⟨same, ⟨presented, now, draws, rfl, known⟩, checked⟩, now, revoked⟩
  · rw [Function.update_of_ne same] at running reached
    exact .inl ⟨same, presented, now, draws, asked, rest, user, running, reached, known⟩

theorem Exchanging.of_started {call : SessionCall} {script : Serving SessionAnswer}
    (exchanging : service.Exchanging
      ⟨after, Function.update world.running thread (some (call, script))⟩
      (Function.update stages thread .opening) other digest) :
    service.Exchanging world stages other digest := by
  obtain ⟨presented, now, draws, asked, rest, user, running, reached, known⟩ := exchanging
  change Function.update world.running thread _ other = _ at running
  by_cases same : other = thread
  · rw [same, Function.update_self] at reached
    cases reached
  · rw [Function.update_of_ne same] at running reached
    exact ⟨presented, now, draws, asked, rest, user, running, reached, known⟩

theorem Exchanging.of_ended (exchanging : service.Exchanging
      ⟨after, Function.update world.running thread none⟩ stages other digest) :
    service.Exchanging world stages other digest := by
  obtain ⟨presented, now, draws, asked, rest, user, running, reached, known⟩ := exchanging
  change Function.update world.running thread _ other = _ at running
  by_cases same : other = thread
  · rw [same, Function.update_self] at running
    cases running
  · rw [Function.update_of_ne same] at running
    exact ⟨presented, now, draws, asked, rest, user, running, reached, known⟩

end Updates

/-- A rotation that stored a replacement was exchanging its session. -/
theorem Replaced.exchanging {world : SessionWorld Thread} {stages : Thread → SessionStage}
    {thread : Thread} {call : SessionCall} {statement : SessionSql}
    {next : Except DatabaseErrorKind statement.Reply → Serving SessionAnswer}
    {did : Option (Except DatabaseErrorKind statement.Reply)} {old new : SecretDigest}
    (replaced : service.Replaced old new (.ran thread call statement did))
    (at' : world.running thread = some (call, .query statement next))
    (allowed : service.allows call (stages thread) statement) :
    service.Exchanging world stages thread old := by
  obtain ⟨_, presented, now, draws, row, ⟨⟩, known, _⟩ := replaced
  obtain ⟨user, reached, _⟩ := allows_insert allowed
  exact ⟨presented, now, draws, _, _, user, at', reached, known⟩

/-! ## Runs -/

theorem kept_initial {stages : Thread → SessionStage} :
    service.Kept [] ⟨[], fun _ => none⟩ stages where
  keyed := List.nodup_nil
  places := by rintro _ _ _ ⟨⟩
  replaced := by rintro _ ⟨⟩

variable [DecidableEq Thread]

theorem Kept.ended {events : List (SessionEvent Thread)} {world : SessionWorld Thread}
    {stages : Thread → SessionStage} {event : SessionEvent Thread} {thread : Thread}
    (kept : service.Kept events world stages)
    (other : ∀ thread call, event ≠ .started thread call)
    (unreplaced : ∀ old new, ¬ service.Replaced old new event) :
    service.Kept (events ++ [event])
      ⟨world.store, Function.update world.running thread none⟩ stages where
  keyed := kept.keyed
  places := kept.places.ended fun _ _ _ _ placed =>
    placed.later (SessionSql.grows_refl none _) (other _)
  replaced := by
    intro later member old new replaced
    obtain before | same := List.mem_append.mp member
    · exact kept.replaced later before old new replaced
    · rw [List.mem_singleton.mp same] at replaced
      exact (unreplaced old new replaced).elim

/-- **Every run keeps it.** -/
theorem kept_keeps (guard : List (SessionEvent Thread) × SessionWorld Thread →
    SessionEvent Thread → Prop) : service.staging.Keeps guard service.Kept where
  started := by
    intro events before stages thread call kept idle _
    refine ⟨kept.keyed, kept.places.update ⟨?_, ?_, ?_, ?_⟩ ?_, ?_⟩
    · intro presented now draws _ digest user _ reached
      obtain reached | reached := reached <;> cases reached
    · intro user now _ reached
      cases reached
    · intro user presented now draws digests _ reached
      cases reached
    · intro presented now draws _ reached
      cases reached
    · intro other called reached different placed
      refine placed.later (SessionSql.grows_refl none _) ?_
      rintro _ ⟨⟩
      exact different rfl
    · intro event member old new replaced
      obtain before | same := List.mem_append.mp member
      · exact kept.replaced event before old new replaced
      · obtain rfl := List.mem_singleton.mp same
        obtain ⟨_, _, _, _, _, ⟨⟩, _⟩ := replaced
  ran := by
    intro events before stages thread call statement next did told after kept _ at' performs _
      allowed
    obtain ⟨inserted, grows⟩ := performed_grows performs
    have placed := kept.places _ _ _ at'
    refine ⟨grows.keyed kept.keyed, kept.places.update ⟨?_, ?_, ?_, ?_⟩ ?_, ?_⟩
    · rintro presented now draws rfl digest user known reached
      have hears : told = (SessionSql.run statement before.store).1 ∨
          ∃ kind, told = .error kind := by
        obtain ⟨failed, _, _⟩ | ⟨_, hears, _⟩ := performed performs
        · exact .inr failed
        · exact hears
      refine owner_evolves grows (rotate_owner allowed known hears ?_ reached)
      exact placed.owner presented now draws rfl digest user known
    · rintro user now rfl reached
      obtain ⟨rfl, reply, rfl⟩ := sweep_told allowed reached
      obtain ⟨⟨_, ⟨⟩⟩, _, _⟩ | ⟨rfl, _, _⟩ := performed performs
      exact .now rfl
    · rintro user presented now draws digests rfl reached
      obtain ⟨came, reply, rfl⟩ := begin_evicting allowed reached
      obtain ⟨⟨_, ⟨⟩⟩, _, _⟩ | ⟨rfl, _, _⟩ := performed performs
      obtain ⟨_, rfl⟩ | ⟨digest, earlier, _⟩ := came
      · exact .now trivial
      · exact (placed.reads _ _ _ _ _ rfl earlier).append (by rintro _ ⟨⟩)
    · rintro presented now draws rfl reached
      obtain ⟨came, reply, rfl⟩ := rotate_checked allowed reached
      obtain ⟨⟨_, ⟨⟩⟩, _, _⟩ | ⟨rfl, _, _⟩ := performed performs
      obtain ⟨_, digest, known, rfl⟩ | earlier := came
      · exact ⟨⟨digest, known⟩, .now trivial⟩
      · obtain ⟨known, ran⟩ := placed.touches _ _ _ rfl earlier
        exact ⟨known, ran.append (by rintro _ ⟨⟩)⟩
    · intro other called reached different placed
      exact placed.later grows (by rintro _ ⟨⟩)
    · intro event member old new replaced
      obtain before' | same := List.mem_append.mp member
      · obtain ⟨row, member, other, among, rfl, rfl, same⟩ :=
          kept.replaced event before' old new replaced
        obtain ⟨row', member', evolves⟩ := grows.kept row member
        obtain ⟨other', among', evolves'⟩ := grows.kept other among
        exact ⟨row', member', other', among', evolves.tokenHash, evolves'.tokenHash,
          evolves.userId.trans (same.trans evolves'.userId.symm)⟩
      · obtain rfl := List.mem_singleton.mp same
        obtain ⟨_, presented, now, draws, row, ⟨⟩, known, rfl⟩ := replaced
        obtain ⟨_, none, _⟩ | ⟨works, _, rfl⟩ := performed performs
        · cases none
        · exact replaced_rows placed allowed known (Option.some.inj works).symm
  returned := by
    intro events before stages thread call result kept _ _ _
    exact kept.ended (by rintro _ _ ⟨⟩) (by rintro _ _ ⟨_, _, _, _, _, ⟨⟩, _⟩)
  cancelled := by
    intro events before stages thread call script kept _ _
    exact kept.ended (by rintro _ _ ⟨⟩) (by rintro _ _ ⟨_, _, _, _, _, ⟨⟩, _⟩)

/-- What a run from the start has kept when it ends. -/
theorem run_keeps {guard : SessionWorld Thread → SessionEvent Thread → Prop}
    {first last : SessionWorld Thread} {events : List (SessionEvent Thread)}
    (initial : (service.calls.system.restrict guard).Initial first)
    (run : (service.calls.system.restrict guard).Run first events last) :
    ∃ stages, service.staging.Conforming last stages ∧ service.Kept events last stages := by
  obtain rfl : first = ⟨[], fun _ => none⟩ := initial
  have keeps := @kept_keeps _ service _ fun past event => guard past.2 event
  have conforming := service.staging.conforming_initial fun _ : Thread => SessionStage.opening
  exact keeps.run (run.recorded []) conforming kept_initial

/-- Rows stay along a run. -/
theorem run_kept {first last : SessionWorld Thread} {events : List (SessionEvent Thread)}
    (run : service.calls.system.Run first events last) :
    ∀ row ∈ first.store, ∃ later ∈ last.store, row.Evolves later := by
  apply Service.run_store
    (fun rows after : List SessionRow => ∀ row ∈ rows, ∃ later ∈ after, row.Evolves later) _ _ _ run
  · exact fun rows row member => ⟨row, member, .refl row⟩
  · intro first middle last earlier later row member
    obtain ⟨between, among, evolves⟩ := earlier row member
    obtain ⟨final, left, onward⟩ := later between among
    exact ⟨final, left, evolves.trans onward⟩
  · exact fun statement rows => (SessionSql.run_grows statement rows).kept

end SessionService

end Renvor
