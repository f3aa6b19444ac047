import Renvor.Auth.Session

/-! # How far a session call has come

Each call asks for its statements in one order, and each statement is on the
session, the subject and the clock reading of the call
(`Renvor.SessionService.staging`).
-/

namespace Renvor

open Foundation
open Foundation.Interleaving (Script)
open Foundation.Concurrent (Conforms Staging)

/-- How far a call of the service has come, by what it read and what it wrote. -/
inductive SessionStage
  | opening
  -- a rotation whose session was live, and whose user is known
  | checked
  | owned (user : UserId)
  -- a rotation that revoked its session and has yet to replace it
  | replacing (user : UserId)
  -- a login that read the live sessions and has yet to evict these
  | evicting (digests : List SecretDigest)
  | finished
  -- told of a failure
  | failed

namespace SessionService

variable (service : SessionService)

/-- The digests of the stalest sessions, all but the ones that leave room. -/
def stalest (live : List SessionHandle) : List SecretDigest :=
  if live.length < service.policy.concurrent - 1 then []
  else (live.take (live.length - (service.policy.concurrent - 1))).map SessionHandle.digest

/-- A row made at an instant. -/
def Made (user : UserId) (now : Instant) (row : SessionRow) : Prop :=
  row.userId = user ∧ row.createdAt = now ∧ row.lastSeenAt = now ∧ row.revokedAt = none

/-- The statement is the liveness check of the presented session. -/
def Touches (presented : String) (now : Instant) (statement : SessionSql) : Prop :=
  ∃ digest, service.presentedDigest presented = some digest ∧
    statement = .touch digest now (service.policy.idleCutoff now) (service.policy.absoluteCutoff now)

/-- The statement reads the user of the presented session. -/
def Owns (presented : String) (statement : SessionSql) : Prop :=
  ∃ digest, service.presentedDigest presented = some digest ∧ statement = .owner digest

/-- The statement revokes the presented session. -/
def Revokes (presented : String) (now : Instant) (statement : SessionSql) : Prop :=
  ∃ digest, service.presentedDigest presented = some digest ∧ statement = .revoke digest now

/-- What a call may ask for in a stage. -/
def allows : SessionCall → SessionStage → SessionSql → Prop
  | .begin user presented now _, .opening, statement =>
      service.Revokes presented now statement ∨ statement = .liveFor user
        (service.policy.idleCutoff now) (service.policy.absoluteCutoff now)
  | .begin _ _ now _, .evicting (digest :: _), statement => statement = .revoke digest now
  | .begin user _ now _, .evicting [], statement =>
      ∃ row, statement = .insert row ∧ Made user now row
  | .authenticate presented now, .opening, statement =>
      service.Touches presented now statement ∨ service.Owns presented statement
  | .rotate presented now _, .opening, statement => service.Touches presented now statement
  | .rotate presented _ _, .checked, statement => service.Owns presented statement
  | .rotate presented now _, .owned _, statement => service.Revokes presented now statement
  | .rotate _ now _, .replacing user, statement => ∃ row, statement = .insert row ∧ Made user now row
  | .logOut presented now, .opening, statement => service.Revokes presented now statement
  | .logOutEverywhere user now, .opening, statement => statement = .revokeAll user now
  | _, _, _ => False

/-- The stage of a login that is told of rows. -/
def readStage (rows : List (List Byte × Instant)) : SessionStage :=
  match SqlxSessionRepository.handles rows with
  | .ok live => .evicting (service.stalest live)
  | .error _ => .finished

/-- The stage of a rotation that is told of an owner. -/
def ownedStage : Option (List Byte × Instant × Instant) → SessionStage
  | none => .finished
  | some (user, _, _) => match userIdFrom user with
      | .ok user => .owned user
      | .error _ => .finished

/-- The stage a reply takes a call to. -/
def advance : SessionCall → SessionStage → (statement : SessionSql) →
    Except DatabaseErrorKind statement.Reply → SessionStage
  | _, _, _, .error _ => .failed
  | .begin .., .opening, .liveFor .., .ok rows => service.readStage rows
  | .begin .., .evicting (_ :: rest), .revoke .., .ok _ => .evicting rest
  | .begin .., .evicting [], .insert _, .ok _ => .finished
  | .rotate .., .opening, .touch .., .ok affected => if affected = 0 then .finished else .checked
  | .rotate .., .checked, .owner _, .ok owner => ownedStage owner
  | .rotate .., .owned user, .revoke .., .ok affected =>
      if affected = 1 then .replacing user else .finished
  | .rotate .., .replacing _, .insert _, .ok _ => .finished
  | .logOutEverywhere .., .opening, .revokeAll .., .ok _ => .finished
  | _, stage, _, .ok _ => stage

/-- The stages a call is done in. -/
def ends : SessionCall → SessionAnswer → SessionStage → Prop
  | .logOutEverywhere .., _, stage => stage = .finished
  | _, _, _ => True

variable {service} {user : UserId} {presented : String} {now : Instant} {draws : SessionDraws}

/-- A conforming script of the service. -/
abbrev Follows {Answer : Type} (service : SessionService) (call : SessionCall)
    (ends : Answer → SessionStage → Prop) (stage : SessionStage) (script : Serving Answer) : Prop :=
  Conforms (service.allows call) (service.advance call) ends stage script

section Statements

variable {call : SessionCall} {stage : SessionStage} {digest : SecretDigest}

/-- Revoking is one statement, and tells whether it revoked something. -/
theorem revoke_follows {ends : Bool → SessionStage → Prop}
    (allowed : service.allows call stage (.revoke digest now))
    (told : ∀ affected : Nat, ends (affected = 1)
      (service.advance call stage (.revoke digest now) (.ok affected))) :
    service.Follows call ends stage (stored (SqlxSessionRepository.revoke digest now)) := by
  refine ⟨allowed, fun reply => ?_⟩
  cases reply with
  | error kind => trivial
  | ok affected => exact told affected

/-- Creating a session is one statement, with the row that was made for it. -/
theorem create_follows {drawn : Option Sixteen} {ends : Unit → SessionStage → Prop}
    (allowed : ∀ row, Made user now row → service.allows call stage (.insert row))
    (told : ∀ row, ends () (service.advance call stage (.insert row) (.ok ()))) :
    service.Follows call ends stage
      (stored (SqlxSessionRepository.create drawn user digest now)) := by
  cases drawn with
  | none => trivial
  | some id =>
      refine ⟨allowed _ ⟨rfl, rfl, rfl, rfl⟩, fun reply => ?_⟩
      cases reply with
      | error kind => trivial
      | ok => exact told _

/-- Establishing a session draws its secret and inserts its row. -/
theorem establish_follows {ends : SetCookie → SessionStage → Prop}
    (allowed : ∀ row, Made user now row → service.allows call stage (.insert row))
    (told : ∀ cookie row, ends cookie (service.advance call stage (.insert row) (.ok ()))) :
    service.Follows call ends stage (service.establish user now draws) := by
  unfold establish
  cases Opaque.generate .session draws.secret with
  | error error => trivial
  | ok secret =>
      have creates : service.Follows call (fun _ reached => ∀ cookie, ends cookie reached) stage
          (stored (SqlxSessionRepository.create draws.id user (.of service.hash secret) now)) :=
        create_follows allowed fun row cookie => told cookie row
      exact creates.bind fun _ _ reached => reached _

end Statements

/-- Retiring what was presented revokes it, if it was a session at all. -/
theorem retire_follows {call : SessionCall} {stage : SessionStage}
    (allowed : ∀ digest, service.presentedDigest presented = some digest →
      service.allows call stage (.revoke digest now))
    (stays : ∀ digest affected,
      service.advance call stage (.revoke digest now) (.ok affected) = stage) :
    service.Follows call (fun _ reached => reached = stage) stage (service.retire presented now) := by
  unfold retire
  cases known : service.presentedDigest presented with
  | none => exact rfl
  | some digest => exact revoke_follows (allowed digest known) (stays digest)

/-- Evicting revokes the sessions one by one, by induction on those that are left. -/
theorem evict_follows (handles : List SessionHandle) :
    service.Follows (.begin user presented now draws) (fun _ reached => reached = .evicting [])
      (.evicting (handles.map SessionHandle.digest)) (evict now handles) := by
  induction handles with
  | nil => exact rfl
  | cons handle rest ih =>
      have revokes : service.Follows (.begin user presented now draws)
          (fun _ reached => reached = .evicting (rest.map SessionHandle.digest))
          (.evicting ((handle :: rest).map SessionHandle.digest))
          (stored (SqlxSessionRepository.revoke handle.digest now)) := by
        apply revoke_follows
        · exact rfl
        · exact fun _ => rfl
      apply revokes.bind
      rintro revoked _ rfl
      exact ih.bind fun _ _ reached => reached

/-- Enforcing the bound reads the live sessions and evicts those that are too many. -/
theorem enforceBound_follows :
    service.Follows (.begin user presented now draws) (fun _ reached => reached = .evicting [])
      .opening (service.enforceBound user now) := by
  have reads : service.Follows (.begin user presented now draws)
      (fun live reached => reached = .evicting (service.stalest live)) .opening
      (stored (SqlxSessionRepository.liveFor user (service.policy.idleCutoff now)
        (service.policy.absoluteCutoff now))) := by
    refine ⟨.inr rfl, fun reply => ?_⟩
    cases reply with
    | error kind => trivial
    | ok rows =>
        show Conforms _ _ _ (service.readStage rows) (Script.mapError _
          (Script.ofExcept (SqlxSessionRepository.handles rows)))
        unfold readStage
        cases SqlxSessionRepository.handles rows with
        | error kind => trivial
        | ok live => exact rfl
  apply reads.bind
  rintro live _ rfl
  unfold stalest
  dsimp only
  split
  · exact rfl
  · exact evict_follows _

/-- Every statement of a login is within what its stage allows. -/
theorem begin_follows :
    service.Follows (.begin user presented now draws) (fun _ _ => True) .opening
      (service.begin user presented now draws) := by
  have retires : service.Follows (.begin user presented now draws)
      (fun _ reached => reached = .opening) .opening (service.retire presented now) := by
    apply retire_follows
    · exact fun digest known => .inl ⟨digest, known, rfl⟩
    · exact fun _ _ => rfl
  apply retires.bind
  rintro _ _ rfl
  apply enforceBound_follows.bind
  rintro _ _ rfl
  have establishes : service.Follows (.begin user presented now draws) (fun _ _ => True)
      (.evicting []) (service.establish user now draws) := by
    apply establish_follows
    · exact fun row made => ⟨row, rfl, made⟩
    · exact fun _ _ => trivial
  exact establishes.bind fun _ _ _ => trivial

/-- The liveness check of a rotation, which is told an owner only if the session
was live. -/
theorem check_follows {digest : SecretDigest}
    (known : service.presentedDigest presented = some digest) :
    service.Follows (.rotate presented now draws)
      (fun found reached => ∀ record, found = some record → reached = .owned record.userId) .opening
      (service.check digest now) := by
  refine ⟨⟨digest, known, rfl⟩, fun reply => ?_⟩
  cases reply with
  | error kind => trivial
  | ok affected =>
      show Conforms _ _ _ (if affected = 0 then SessionStage.finished else .checked)
        (Script.mapError _ (if affected = 0 then pure none else _))
      by_cases none : affected = 0
      · rw [if_pos none, if_pos none]
        rintro record ⟨⟩
      · rw [if_neg none, if_neg none]
        refine ⟨⟨digest, known, rfl⟩, fun reply => ?_⟩
        cases reply with
        | error kind => trivial
        | ok owner =>
            cases owner with
            | none => rintro record ⟨⟩
            | some owner =>
                obtain ⟨user, createdAt, lastSeenAt⟩ := owner
                show Conforms _ _ _ (match userIdFrom user with
                  | .ok user => SessionStage.owned user
                  | .error _ => .finished) (Script.mapError _
                    (Script.bind (Script.ofExcept (userIdFrom user)) _))
                cases userIdFrom user with
                | error kind => trivial
                | ok user =>
                    rintro record ⟨⟩
                    rfl

/-- Every statement of a rotation is within what its stage allows. -/
theorem rotate_follows :
    service.Follows (.rotate presented now draws) (fun _ _ => True) .opening
      (service.rotate presented now draws) := by
  unfold rotate
  cases known : service.presentedDigest presented with
  | none => trivial
  | some digest =>
      apply (check_follows known).bind
      intro found stage told
      cases found with
      | none => trivial
      | some record =>
          obtain rfl := told record rfl
          have revokes : service.Follows (.rotate presented now draws)
              (fun revoked reached => revoked = true → reached = .replacing record.userId)
              (.owned record.userId) (stored (SqlxSessionRepository.revoke digest now)) := by
            apply revoke_follows
            · exact ⟨digest, known, rfl⟩
            · intro affected one
              exact if_pos (of_decide_eq_true one)
          apply revokes.bind
          intro revoked stage told
          cases revoked with
          | false => trivial
          | true =>
              obtain rfl := told rfl
              have establishes : service.Follows (.rotate presented now draws) (fun _ _ => True)
                  (.replacing record.userId) (service.establish record.userId now draws) := by
                apply establish_follows
                · exact fun row made => ⟨row, rfl, made⟩
                · exact fun _ _ => trivial
              exact establishes.bind fun _ _ _ => trivial

/-- Every statement of an authentication is within what its stage allows. -/
theorem authenticate_follows :
    service.Follows (.authenticate presented now) (fun _ _ => True) .opening
      (service.authenticate presented now) := by
  unfold authenticate
  cases read : service.library.read presented with
  | error why => trivial
  | ok secret =>
      have known : service.presentedDigest presented = some (.of service.hash secret) := by
        unfold presentedDigest
        rw [read]
      refine ⟨.inl ⟨_, known, rfl⟩, fun reply => ?_⟩
      cases reply with
      | error kind => trivial
      | ok affected =>
          show Conforms _ _ _ SessionStage.opening (Script.bind (Script.mapError _
            (if affected = 0 then pure none else _)) _)
          by_cases none : affected = 0
          · rw [if_pos none]
            trivial
          · rw [if_neg none]
            refine ⟨.inr ⟨_, known, rfl⟩, fun reply => ?_⟩
            cases reply with
            | error kind => trivial
            | ok owner =>
                cases owner with
                | none => trivial
                | some owner =>
                    obtain ⟨user, createdAt, lastSeenAt⟩ := owner
                    show Conforms _ _ _ SessionStage.opening (Script.bind (Script.mapError _
                      (Script.bind (Script.ofExcept (userIdFrom user)) _)) _)
                    cases userIdFrom user <;> trivial

/-- Every statement of a logout is within what its stage allows. -/
theorem logOut_follows :
    service.Follows (.logOut presented now) (fun _ _ => True) .opening
      (service.logOut presented now) := by
  have retires : service.Follows (.logOut presented now)
      (fun _ reached => reached = .opening) .opening (service.retire presented now) := by
    apply retire_follows
    · exact fun digest known => ⟨digest, known, rfl⟩
    · exact fun _ _ => rfl
  exact retires.bind fun _ _ _ => trivial

/-- Calls at their stages. -/
def staging (service : SessionService) : Staging service.calls SessionStage where
  first _ := .opening
  allows := service.allows
  next := service.advance
  ends := ends
  conforms call := by
    cases call with
    | begin user presented now draws => exact begin_follows.bind fun _ _ _ => trivial
    | authenticate presented now => exact authenticate_follows.bind fun _ _ _ => trivial
    | rotate presented now draws => exact rotate_follows.bind fun _ _ _ => trivial
    | logOut presented now => exact logOut_follows.bind fun _ _ _ => trivial
    | logOutEverywhere user now =>
        refine ⟨rfl, fun reply => ?_⟩
        cases reply with
        | error kind => trivial
        | ok revoked => exact rfl

end SessionService

end Renvor
