import Renvor.Auth.Cookie
import Renvor.Auth.SessionStore
import Renvor.Foundation.Concurrent

/-! # The session service

Sessions begin, are replaced and end through statements that other calls may
come between.
-/

namespace Renvor

open Foundation
open Foundation.Interleaving (Script)
open Foundation.Concurrent (Service)

/-- How long sessions live and how many a subject may hold. -/
structure SessionPolicy where
  idle : Duration
  absolute : Duration
  concurrent : Nat
  positive : 0 < idle ∧ 0 < absolute
  within : idle ≤ .minutes 60 ∧ absolute ≤ .days 1
  ordered : idle ≤ absolute
  some : 0 < concurrent

namespace SessionPolicy

def new (idle absolute : Duration) (concurrent : { count : Nat // 0 < count }) :
    Except AuthError SessionPolicy :=
  if accepted : (0 < idle ∧ 0 < absolute) ∧ (idle ≤ .minutes 60 ∧ absolute ≤ .days 1) ∧
      idle ≤ absolute then
    .ok ⟨idle, absolute, concurrent.val, accepted.1, accepted.2.1, accepted.2.2, concurrent.property⟩
  else .error .policyMisconfigured

variable (policy : SessionPolicy) (now : Instant)

def idleCutoff : Instant := now - policy.idle

def absoluteCutoff : Instant := now - policy.absolute

/-- The cookie is kept for the absolute window. -/
def cookieMaxAge : Duration := policy.absolute

end SessionPolicy

/-- What starting a session did besides start one. -/
structure Established where
  replacedPresented : Bool
  evicted : Nat

inductive SessionRejection
  | cookie (why : CookieRejection)
  | notLive

inductive SessionOutcome
  | live (subject : UserId)
  | rejected (reason : SessionRejection)

inductive LogoutOutcome
  | ended | alreadyEnded

/-- What the entropy sources give one call: a row's identifier and a secret. -/
structure SessionDraws where
  id : Option Sixteen
  secret : Option { bytes : List Byte // bytes.length = Opaque.width }

/-- The service's configuration, the hash it digests secrets with and the cookie
library. -/
structure SessionService where
  policy : SessionPolicy
  cookies : CookiePolicy
  library : CookieLibrary
  hash : Sha256

namespace SessionService

variable (service : SessionService)

/-- A script of the service. -/
abbrev Serving := SqlxSessionRepository.Storing ServiceError

/-- A repository's call. -/
def stored {Answer : Type} (call : SqlxSessionRepository.Storing DatabaseErrorKind Answer) :
    Serving Answer :=
  call.mapError ServiceError.storage

/-- The digest of the session a `Cookie` header presents. -/
def presentedDigest (presented : String) : Option SecretDigest :=
  match service.library.read presented with
  | .ok secret => some (.of service.hash secret)
  | .error _ => none

/-- Revokes sessions in turn and counts those this call revoked. -/
def evict (now : Instant) : List SessionHandle → Serving Nat
  | [] => return 0
  | handle :: rest => do
      let revoked ← stored (SqlxSessionRepository.revoke handle.digest now)
      let others ← evict now rest
      return if revoked then others + 1 else others

/-- Revokes the subject's stalest sessions until one more will fit. -/
def enforceBound (user : UserId) (now : Instant) : Serving Nat := do
  let live ← stored (SqlxSessionRepository.liveFor user (service.policy.idleCutoff now)
    (service.policy.absoluteCutoff now))
  let bound := service.policy.concurrent
  if live.length < bound - 1 then return 0
  else evict now (live.take (live.length - (bound - 1)))

/-- Revokes what the subject arrived holding. -/
def retire (presented : String) (now : Instant) : Serving Bool :=
  match service.presentedDigest presented with
  | some digest => stored (SqlxSessionRepository.revoke digest now)
  | none => return false

/-- A new session and its cookie. -/
def establish (user : UserId) (now : Instant) (draws : SessionDraws) : Serving SetCookie := do
  let secret ← Script.ofExcept ((Opaque.generate .session draws.secret).mapError .refused)
  stored (SqlxSessionRepository.create draws.id user (.of service.hash secret) now)
  return service.library.issue secret service.cookies service.policy.cookieMaxAge

/-- Starts a session for a subject that has just authenticated. -/
def begin (user : UserId) (presented : String) (now : Instant) (draws : SessionDraws) :
    Serving (SetCookie × Established) := do
  let replacedPresented ← service.retire presented now
  let evicted ← service.enforceBound user now
  let cookie ← service.establish user now draws
  return (cookie, { replacedPresented, evicted })

/-- The liveness check of a presented session. -/
def check (digest : SecretDigest) (now : Instant) : Serving (Option SessionRecord) :=
  stored (SqlxSessionRepository.touch digest now (service.policy.idleCutoff now)
    (service.policy.absoluteCutoff now))

/-- Authenticates a request from its `Cookie` header. -/
def authenticate (presented : String) (now : Instant) : Serving SessionOutcome :=
  match service.library.read presented with
  | .error why => return .rejected (.cookie why)
  | .ok secret => do
      match ← service.check (.of service.hash secret) now with
      | none => return .rejected .notLive
      | some record => return .live record.userId

/-- Replaces the session identifier, keeping the subject signed in. -/
def rotate (presented : String) (now : Instant) (draws : SessionDraws) :
    Serving (SetCookie × Option UserId) :=
  match service.presentedDigest presented with
  | none => return (service.library.expire service.cookies, none)
  | some digest => do
      match ← service.check digest now with
      | none => return (service.library.expire service.cookies, none)
      | some record => do
          let revoked ← stored (SqlxSessionRepository.revoke digest now)
          if revoked then do
            let cookie ← service.establish record.userId now draws
            return (cookie, some record.userId)
          else return (service.library.expire service.cookies, none)

/-- Ends the session a request presents. -/
def logOut (presented : String) (now : Instant) : Serving (SetCookie × LogoutOutcome) := do
  let ended ← service.retire presented now
  return (service.library.expire service.cookies, if ended then .ended else .alreadyEnded)

/-- Ends every live session of a subject. -/
def logOutEverywhere (user : UserId) (now : Instant) : Serving (SetCookie × Nat) := do
  let revoked ← stored (SqlxSessionRepository.revokeAllFor user now)
  return (service.library.expire service.cookies, revoked)

end SessionService

/-- The calls of the service. -/
inductive SessionCall
  | begin (user : UserId) (presented : String) (now : Instant) (draws : SessionDraws)
  | authenticate (presented : String) (now : Instant)
  | rotate (presented : String) (now : Instant) (draws : SessionDraws)
  | logOut (presented : String) (now : Instant)
  | logOutEverywhere (user : UserId) (now : Instant)

inductive SessionAnswer
  | begun (cookie : SetCookie) (established : Established)
  | authenticated (outcome : SessionOutcome)
  | rotated (cookie : SetCookie) (subject : Option UserId)
  | loggedOut (cookie : SetCookie) (outcome : LogoutOutcome)
  | loggedOutEverywhere (cookie : SetCookie) (revoked : Nat)

/-- What a call runs. -/
def SessionCall.body (service : SessionService) : SessionCall → SessionService.Serving SessionAnswer
  | begin user presented now draws => do
      let (cookie, established) ← service.begin user presented now draws
      return .begun cookie established
  | authenticate presented now => do
      return .authenticated (← service.authenticate presented now)
  | rotate presented now draws => do
      let (cookie, subject) ← service.rotate presented now draws
      return .rotated cookie subject
  | logOut presented now => do
      let (cookie, outcome) ← service.logOut presented now
      return .loggedOut cookie outcome
  | logOutEverywhere user now => do
      let (cookie, revoked) ← service.logOutEverywhere user now
      return .loggedOutEverywhere cookie revoked

/-- The service over the store. -/
def SessionService.calls (service : SessionService) :
    Service (List SessionRow) SessionSql SessionSql.Reply DatabaseErrorKind SessionCall ServiceError
      SessionAnswer where
  run := SessionSql.run
  body := SessionCall.body service
  empty := []

end Renvor
