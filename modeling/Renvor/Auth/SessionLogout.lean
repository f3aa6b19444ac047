import Mathlib.Logic.Relation
import Renvor.Auth.SessionRuns

/-! # Logging out everywhere

A rotation revokes its session in one statement and stores the replacement in
another. Where no sweep of the subject's sessions comes between the two, a sweep
ends every session and all that come of them (`Renvor.logs_out_everywhere`);
where one does, the replacement lives on (`Renvor.replaced_after_sweep`).
-/

namespace Renvor

open Foundation
open Foundation.Interleaving (Script)
open Foundation.Concurrent (Event Move Service)

variable {Thread : Type}

namespace SessionService

variable (service : SessionService)

/-- A session that some chain of rotations obtained from another. -/
def Descends (events : List (SessionEvent Thread)) : SecretDigest → SecretDigest → Prop :=
  Relation.ReflTransGen fun old new => ∃ event ∈ events, service.Replaced old new event

/-- Once a call to log a subject out everywhere has returned, no session from
before it began lives, and none that came of one, in the runs whose steps meet a
guard. -/
def LogsOut [DecidableEq Thread]
    (guard : SessionWorld Thread → SessionEvent Thread → Prop) : Prop :=
  let system := service.calls.system.restrict guard
  ∀ before during later first begun opened closed ended last thread user now answer,
    system.Initial first → system.Run first before begun →
    system.Step begun (.started thread (.logOutEverywhere user now)) opened →
    system.Run opened during closed → (∀ event ∈ during, ¬ event.Ends thread) →
    system.Step closed (.returned thread (.logOutEverywhere user now) (.ok answer)) ended →
    system.Run ended later last →
    ∀ row ∈ begun.store, row.userId = user → ∀ other ∈ last.store,
      service.Descends (before ++ .started thread (.logOutEverywhere user now) ::
        (during ++ .returned thread (.logOutEverywhere user now) (.ok answer) :: later))
        row.tokenHash other.tokenHash →
      ∀ idleCutoff absoluteCutoff, other.live idleCutoff absoluteCutoff = false

end SessionService

/-- A rotation has revoked a session of the user and has yet to store the
replacement. -/
def SessionWorld.Replacing (world : SessionWorld Thread) (user : UserId) : Prop :=
  ∃ thread presented now draws row next,
    world.running thread = some (.rotate presented now draws, .query (.insert row) next) ∧
      row.userId = user

/-- The step sweeps no user's sessions while one of them is being replaced. -/
def SweepsSettled (world : SessionWorld Thread) (event : SessionEvent Thread) : Prop :=
  ∀ thread call user now reply, event = .ran thread call (.revokeAll user now) (some reply) →
    ¬ world.Replacing user

namespace SessionService

variable {service : SessionService} {now : Instant}

/-! ## Sessions that have ended for good -/

/-- Sessions whose rows are revoked, that no rotation is about to replace and that
were only ever replaced by each other. -/
structure Gone (service : SessionService) (gone : SecretDigest → Prop)
    (events : List (SessionEvent Thread)) (world : SessionWorld Thread)
    (stages : Thread → SessionStage) : Prop where
  keyed : SessionRow.Keyed world.store
  revoked : ∀ digest, gone digest → SessionRow.Revoked world.store digest
  unreplaced : ∀ thread digest, service.Exchanging world stages thread digest → ¬ gone digest
  chains : ∀ event ∈ events, ∀ old new, service.Replaced old new event → gone old → gone new

variable {gone : SecretDigest → Prop}

/-- The step replaces none of them. -/
theorem Gone.chained {events : List (SessionEvent Thread)} {world : SessionWorld Thread}
    {stages : Thread → SessionStage} {event : SessionEvent Thread}
    (stopped : service.Gone gone events world stages)
    (unreplaced : ∀ old new, service.Replaced old new event → ¬ gone old) :
    ∀ later ∈ events ++ [event], ∀ old new, service.Replaced old new later → gone old →
      gone new := by
  intro later member old new replaced ended
  obtain before | same := List.mem_append.mp member
  · exact stopped.chains later before old new replaced ended
  · rw [List.mem_singleton.mp same] at replaced
    exact (unreplaced old new replaced ended).elim

variable [DecidableEq Thread]

/-- **A session that has ended for good stays so.** -/
theorem gone_keeps (guard : List (SessionEvent Thread) × SessionWorld Thread →
    SessionEvent Thread → Prop) : service.staging.Keeps guard (service.Gone gone) where
  started := by
    intro events before stages thread call stopped idle _
    exact {
      keyed := stopped.keyed
      revoked := stopped.revoked
      unreplaced := fun other digest exchanging =>
        stopped.unreplaced other digest exchanging.of_started
      chains := stopped.chained (by rintro _ _ ⟨_, _, _, _, _, ⟨⟩, _⟩) }
  ran := by
    intro events before stages thread call statement next did told after stopped _ at' performs _
      allowed
    obtain ⟨inserted, grows⟩ := performed_grows performs
    refine ⟨grows.keyed stopped.keyed, fun digest ended => grows.revoked (stopped.revoked digest ended),
      ?_, stopped.chained ?_⟩
    · intro other digest exchanging ended
      obtain ⟨_, exchanging⟩ | ⟨_, _, _, live⟩ := exchanging.of_ran performs allowed
      · exact stopped.unreplaced other digest exchanging ended
      · exact (stopped.revoked digest ended).not_live stopped.keyed live
    · intro old new replaced
      exact stopped.unreplaced thread old (replaced.exchanging at' allowed)
  returned := by
    intro events before stages thread call result stopped _ _ _
    exact {
      keyed := stopped.keyed
      revoked := stopped.revoked
      unreplaced := fun other digest exchanging => stopped.unreplaced other digest exchanging.of_ended
      chains := stopped.chained (by rintro _ _ ⟨_, _, _, _, _, ⟨⟩, _⟩) }
  cancelled := by
    intro events before stages thread call script stopped _ _
    exact {
      keyed := stopped.keyed
      revoked := stopped.revoked
      unreplaced := fun other digest exchanging => stopped.unreplaced other digest exchanging.of_ended
      chains := stopped.chained (by rintro _ _ ⟨_, _, _, _, _, ⟨⟩, _⟩) }

/-- A sweep, with none of the user's sessions being replaced, ends them for good. -/
theorem Kept.swept {events : List (SessionEvent Thread)} {before : SessionWorld Thread}
    {stages : Thread → SessionStage} {user : UserId} (kept : service.Kept events before stages)
    (conforming : service.staging.Conforming before stages) (settled : ¬ before.Replacing user)
    {thread : Thread} {reply : Except DatabaseErrorKind Nat} {script : Serving SessionAnswer}
    {stage : SessionStage} :
    service.Gone
      (fun digest => ∃ row ∈ before.store, row.tokenHash = digest ∧ row.userId = user)
      (events ++ [.ran thread (.logOutEverywhere user now) (.revokeAll user now) (some reply)])
      ⟨(SessionSql.run (.revokeAll user now) before.store).2,
        Function.update before.running thread (some (.logOutEverywhere user now, script))⟩
      (Function.update stages thread stage) := by
  have grows := SessionSql.run_grows (.revokeAll user now) before.store
  refine ⟨grows.keyed kept.keyed, ?_, ?_, ?_⟩
  · rintro _ ⟨row, member, rfl, owned⟩
    obtain ⟨later, among, evolves⟩ := grows.kept row member
    exact ⟨later, among, evolves.tokenHash,
      SessionSql.revokeAll_revoked among (evolves.userId.trans owned)⟩
  · rintro other _ ⟨presented, at', draws, statement, rest, owner, running, reached, known⟩
      ⟨row, member, rfl, owned⟩
    change Function.update before.running thread _ other = _ at running
    by_cases same : other = thread
    · rw [same, Function.update_self] at running
      cases running
    · rw [Function.update_of_ne same] at running reached
      obtain ⟨old, among, same, others⟩ :=
        (kept.places _ _ _ running).owner _ _ _ rfl _ owner known (.inr reached)
      obtain rfl := kept.keyed.eq member among same.symm
      have allowed := (conforming _ _ _ running).1
      rw [reached] at allowed
      obtain ⟨inserted, rfl, made⟩ := allowed
      exact settled ⟨other, presented, at', draws, inserted, rest, running,
        made.1.trans (others.symm.trans owned)⟩
  · rintro event member old new replaced ⟨row, among, rfl, owned⟩
    obtain before' | same := List.mem_append.mp member
    · obtain ⟨first, one, other, two, same, rfl, users⟩ :=
        kept.replaced event before' _ new replaced
      obtain rfl := kept.keyed.eq among one same.symm
      exact ⟨other, two, rfl, users.symm.trans owned⟩
    · obtain rfl := List.mem_singleton.mp same
      obtain ⟨_, _, _, _, _, ⟨⟩, _⟩ := replaced

/-- What ends for good stays over until a run's end, with what came of it. -/
theorem Gone.run {guard : SessionWorld Thread → SessionEvent Thread → Prop}
    {first last : SessionWorld Thread} {past events : List (SessionEvent Thread)}
    {stages : Thread → SessionStage} (stopped : service.Gone gone past first stages)
    (conforming : service.staging.Conforming first stages)
    (run : (service.calls.system.restrict guard).Run first events last) {old : SecretDigest}
    (ended : gone old) {row : SessionRow} (member : row ∈ last.store)
    (descends : service.Descends (past ++ events) old row.tokenHash) :
    row.revokedAt.isSome = true := by
  have keeps := @gone_keeps _ service gone _ fun past event => guard past.2 event
  obtain ⟨_, _, stopped⟩ := keeps.run (run.recorded past) conforming stopped
  refine SessionRow.Revoked.row (stopped.revoked _ ?_) stopped.keyed member
  generalize row.tokenHash = new at descends ⊢
  induction descends with
  | refl => exact ended
  | tail _ step ih =>
      obtain ⟨event, among, replaced⟩ := step
      exact stopped.chains event among _ _ replaced ih

/-- From the sweep of a call on, the user's sessions of before it are over. -/
theorem step_swept {first before after : SessionWorld Thread} {events : List (SessionEvent Thread)}
    {thread : Thread} {user : UserId} {reply : Except DatabaseErrorKind Nat}
    (initial : (service.calls.system.restrict SweepsSettled).Initial first)
    (run : (service.calls.system.restrict SweepsSettled).Run first events before)
    (step : (service.calls.system.restrict SweepsSettled).Step before
      (.ran thread (.logOutEverywhere user now) (.revokeAll user now) (some reply)) after) :
    ∃ stages, service.staging.Conforming after stages ∧ service.Gone
      (fun digest => ∃ row ∈ before.store, row.tokenHash = digest ∧ row.userId = user)
      (events ++ [.ran thread (.logOutEverywhere user now) (.revokeAll user now) (some reply)])
      after stages := by
  obtain ⟨stages, conforming, kept⟩ := run_keeps initial run
  obtain ⟨steps, settled⟩ := step
  obtain ⟨next, told, at', performs, left⟩ := Service.ran_inv steps
  obtain ⟨rows, running⟩ := after
  dsimp only at left performs
  subst left
  obtain ⟨_, ⟨⟩, _⟩ | ⟨_, _, rfl⟩ := performed performs
  have conforms := (conforming _ _ _ at').2 told
  exact ⟨_, conforming.update conforms, kept.swept conforming (settled _ _ _ _ _ rfl)⟩

end SessionService

open SessionService in
/-- **A sweep of settled sessions logs out everywhere.** Once it has returned, no session that
the subject had before it is live, nor any that came of one, provided that no rotation was about
to store a session when the sweep ran. -/
theorem logs_out_everywhere [DecidableEq Thread] (service : SessionService) :
    service.LogsOut (@SweepsSettled Thread) := by
  intro before during later first begun opened closed ended last thread user now answer
    initial earlier starts runs _ returns onward row member owned other among descends idleCutoff
    absoluteCutoff
  -- the call returned, so its sweep is one of the events it was open for
  have opens := TransitionSystem.Run.snoc earlier starts
  obtain ⟨stages, conforming, kept⟩ := run_keeps initial (opens.trans runs)
  rw [List.append_assoc] at kept
  obtain ⟨front, _, reply, rest, rfl, rfl⟩ : ∃ front statement reply rest,
      statement = SessionSql.revokeAll user now ∧ during =
        front ++ .ran thread (.logOutEverywhere user now) statement (some reply) :: rest := by
    generalize label : Event.returned thread _ _ = event at returns
    cases Service.step_cases returns.1 with
    | returned at' =>
        cases label
        have stopped : stages thread = .finished := conforming _ _ _ at'
        exact ((kept.places _ _ _ at').swept _ _ rfl stopped).within
    | started | ran | cancelled => cases label
  rw [List.append_cons] at runs
  obtain ⟨after, toward, away⟩ := runs.append_inv
  obtain ⟨between, toward, sweep⟩ := toward.snoc_inv
  obtain ⟨stages, conforming, gone⟩ := step_swept initial (opens.trans toward) sweep
  -- the user's rows of before the call are still there when it sweeps
  obtain ⟨held, left, evolves⟩ :=
    run_kept ((TransitionSystem.Run.single starts).trans toward).of_restrict row member
  have revoked := gone.run conforming ((away.snoc returns).trans onward)
    ⟨held, left, evolves.tokenHash, evolves.userId.trans owned⟩ among (by simpa using descends)
  unfold SessionRow.live
  rw [← Option.not_isSome, revoked]
  rfl

/-! ## A sweep that a rotation is overtaken by -/

namespace SessionSample

/-- A library that splits a header of one pair. -/
def library : CookieLibrary where
  splitParse header :=
    let name := header.toList.takeWhile (· ≠ '=')
    [some (String.ofList name, String.ofList (header.toList.drop (name.length + 1)))]
  attributes sameSite maxAge expired :=
    "; HttpOnly; SameSite=" ++ (match sameSite with | .lax => "Lax" | .strict => "Strict") ++
      "; Secure; Path=/; Max-Age=" ++ toString maxAge ++
      if expired then "; Expires=Thu, 01 Jan 1970 00:00:00 GMT" else ""

/-- A secret of one byte over and over. -/
def secret (byte : Byte) : Opaque := ⟨.session, List.replicate 32 byte, rfl⟩

def draws (byte : Byte) : SessionDraws :=
  ⟨some (.counted byte), some ⟨List.replicate 32 byte, rfl⟩⟩

/-- The digests of the secrets of ones and of twos. -/
def ones : SecretDigest where
  bytes := [220, 255, 231, 134, 222, 209, 109, 40, 60, 102, 56, 70, 173, 12, 79, 242, 101, 88, 252,
    205, 227, 108, 169, 211, 11, 46, 161, 158, 173, 233, 252, 14]
  width := rfl

def twos : SecretDigest where
  bytes := [203, 168, 197, 150, 18, 11, 219, 105, 222, 187, 217, 35, 217, 44, 186, 148, 139, 222,
    124, 125, 6, 164, 101, 161, 187, 125, 152, 211, 17, 96, 56, 250]
  width := rfl

/-- One session a subject, for half an hour idle and half a day in all. -/
def service : SessionService where
  policy := ⟨.minutes 30, .minutes 720, 1, by decide, by decide, by decide, Nat.one_pos⟩
  cookies := ⟨.lax⟩
  library := library
  hash bytes := if bytes = 0 :: List.replicate 32 1 then ones else twos

def user : UserId := .counted 0

/-- The cookie of the first session. -/
def presented : String := sessionCookieName ++ "=" ++ (secret 1).expose

def login : SessionCall := .begin user "" 0 (draws 1)

def rotation : SessionCall := .rotate presented 0 (draws 2)

def sweep : SessionCall := .logOutEverywhere user 0

/-- The row of a session as it is stored. -/
def row (byte : Byte) (digest : SecretDigest) : SessionRow :=
  ⟨.counted byte, user, digest, 0, 0, none⟩

theorem presentedDigest_presented : service.presentedDigest presented = some ones := by
  decide +kernel

end SessionSample

open SessionSample in
/-- A rotation revokes its session, a sweep of the user's sessions runs and returns,
and the rotation stores a replacement that lives. -/
theorem replaced_after_sweep : ¬ @SessionService.LogsOut Bool service _ fun _ _ => True := by
  intro logsOut
  let system := service.calls.system.restrict fun (_ : SessionWorld Bool) _ => True
  let idleCutoff := service.policy.idleCutoff 0
  let absoluteCutoff := service.policy.absoluteCutoff 0
  let start : SessionWorld Bool := ⟨[], fun _ => none⟩
  let logsIn : List (Move Bool SessionCall DatabaseErrorKind) :=
    [.start false login, .proceed false .works, .proceed false .works, .proceed false .works]
  let overtakes : List (Move Bool SessionCall DatabaseErrorKind) :=
    [.start true sweep, .start false rotation, .proceed false .works, .proceed false .works,
      .proceed false .works, .proceed true .works, .proceed true .works, .proceed false .works]
  have earlier : system.Run start
      [.started false login,
        .ran false login (.liveFor user idleCutoff absoluteCutoff) (some (.ok [])),
        .ran false login (.insert (row 1 ones)) (some (.ok ())),
        .returned false login (.ok (.begun (library.issue (secret 1) ⟨.lax⟩ (.minutes 720))
          ⟨false, 0⟩))]
      (service.calls.reach start logsIn) := by
    apply (Service.play_run logsIn _).restrict_labels fun _ _ _ => trivial
    with_unfolding_all rfl
  have run : system.Run (service.calls.reach start logsIn)
      ([.started true sweep] ++
        ([.started false rotation,
          .ran false rotation (.touch ones 0 idleCutoff absoluteCutoff) (some (.ok 1)),
          .ran false rotation (.owner ones) (some (.ok (some (user.bytes, 0, 0)))),
          .ran false rotation (.revoke ones 0) (some (.ok 1)),
          .ran true sweep (.revokeAll user 0) (some (.ok 0))] ++
        ([.returned true sweep (.ok (.loggedOutEverywhere (library.expire ⟨.lax⟩) 0))] ++
          [.ran false rotation (.insert (row 2 twos)) (some (.ok ()))])))
      (service.calls.reach (service.calls.reach start logsIn) overtakes) := by
    apply (Service.play_run overtakes _).restrict_labels fun _ _ _ => trivial
    with_unfolding_all rfl
  obtain ⟨opened, starts, run⟩ := run.append_inv
  obtain ⟨closed, runs, run⟩ := run.append_inv
  obtain ⟨ended, returns, later⟩ := run.append_inv
  have replaced : service.Replaced ones twos
      (.ran false rotation (.insert (row 2 twos)) (some (.ok ())) : SessionEvent Bool) :=
    ⟨false, presented, 0, draws 2, row 2 twos, rfl, presentedDigest_presented, rfl⟩
  have stored : row 1 ones ∈ (service.calls.reach start logsIn).store := by decide +kernel
  have left : row 2 twos ∈
      (service.calls.reach (service.calls.reach start logsIn) overtakes).store := by decide +kernel
  have ended := logsOut _ _ _ _ _ _ _ _ _ true user 0 _ rfl earlier starts.single_inv runs
    (by simp [Event.Ends]) returns.single_inv later _ stored rfl _ left
    (.single ⟨_, by simp, replaced⟩) (-1) (-1)
  exact absurd ended (by decide)

end Renvor
