import Renvor.Auth.Admission
import Renvor.Auth.RefreshRuns

/-! # Beginning and rotating refresh tokens

The service over the store: it reads a grant, prepares a pair of tokens in
memory, and hands it over only if the store's one transaction committed. Its
calls have outlines over those of the store's transactions
(`Renvor.rotation_outlined`).
-/

namespace Renvor

open Foundation
open Foundation.Interleaving (Script Engine Workload Ground Outlining Outlined)

/-- Thirty days. -/
def RefreshLifetime.longest : Duration := .days 30

abbrev RefreshLifetime := Lifetime RefreshLifetime.longest

abbrev FamilyLifetime := Lifetime RefreshLifetime.longest

/-- A fresh pair, issued together. -/
structure RotatedTokens where
  access : AccessToken
  refresh : Opaque
  family : FamilyId

inductive RefreshRejection
  | unusable | replayed | familyRevoked

inductive RefreshOutcome
  | rotated (tokens : RotatedTokens)
  | rejected (reason : RefreshRejection) (revoked : Nat)

/-- A refusal, without the count that only a replay carries. -/
def rejected (reason : RefreshRejection) : RefreshOutcome := .rejected reason 0

/-- The token lifetime or the end of the family, whichever comes first. -/
def tokenExpiry (now : Instant) (lifetime : RefreshLifetime) (familyExpiresAt : Instant) : Instant :=
  min (now + lifetime.duration) familyExpiresAt

/-- Narrows a store failure. -/
def storeFailure (_ : DatabaseErrorKind) : AuthError := .notPermitted

/-- What the entropy source gives one call. -/
structure RefreshDraws where
  tokenId : Option RefreshTokenId
  secret : Option { bytes : List Byte // bytes.length = Opaque.width }
  jti : Option Sixteen

/-- The service's configuration, and the hash it digests secrets with. -/
structure RefreshRotation where
  lifetime : RefreshLifetime
  familyLifetime : FamilyLifetime
  issuer : AccessTokenIssuer
  hash : Sha256

namespace RefreshRotation

/-- A script of the service: the store's statements and an authentication error. -/
abbrev Serving := Script RefreshSql RefreshSql.Reply AuthError

variable (rotation : RefreshRotation)

/-- The family a login starts. -/
def newFamily (family : FamilyId) (subject : UserId) (scopes : ScopeSet)
    (firstTokenId : RefreshTokenId) (refresh : Opaque) (now : Instant) : NewRefreshFamily :=
  let familyExpiresAt := now + rotation.familyLifetime.duration
  { family
    user := subject
    scopes
    firstTokenId
    firstToken := .of rotation.hash refresh
    createdAt := now
    familyExpiresAt
    tokenExpiresAt := tokenExpiry now rotation.lifetime familyExpiresAt }

/-- Starts a family for a subject that has just authenticated. -/
def begin (subject : UserId) (scopes : ScopeSet) (now signedAt : Instant)
    (family : Option FamilyId) (draws : RefreshDraws) : Serving RotatedTokens := do
  let family ← Script.ofExcept (drawn family)
  let firstTokenId ← Script.ofExcept (drawn draws.tokenId)
  let refresh ← Script.ofExcept (Opaque.generate .refresh draws.secret)
  let access ← Script.ofExcept (rotation.issuer.issue subject scopes signedAt draws.jti)
  (SqlxRefreshTokenRepository.writeFamily
    (rotation.newFamily family subject scopes firstTokenId refresh now)).mapError storeFailure
  return { access, refresh, family }

/-- What the store is asked for a presented token and its grant. -/
def request (presented : SecretDigest) (grant : RefreshGrant) (successorId : RefreshTokenId)
    (successor : Opaque) (now : Instant) : AdvanceRequest where
  presented
  successorId
  successor := .of rotation.hash successor
  successorExpiresAt := tokenExpiry now rotation.lifetime grant.familyExpiresAt
  now

/-- What a transition hands over. -/
def outcome (access : AccessToken) (successor : Opaque) (family : FamilyId) :
    RefreshTransition → RefreshOutcome
  | .advanced => .rotated { access, refresh := successor, family }
  | .replayed revoked => .rejected .replayed revoked
  | .familyRevoked => rejected .familyRevoked
  | .unusable => rejected .unusable

/-- Spends a presented token with its grant known. -/
def spend (presented : SecretDigest) (grant : RefreshGrant) (now signedAt : Instant)
    (draws : RefreshDraws) : Serving RefreshOutcome := do
  let successorId ← Script.ofExcept (drawn draws.tokenId)
  let successor ← Script.ofExcept (Opaque.generate .refresh draws.secret)
  let access ← Script.ofExcept (rotation.issuer.issue grant.user grant.scopes signedAt draws.jti)
  let transition ← (SqlxRefreshTokenRepository.decide
    (rotation.request presented grant successorId successor now)).mapError storeFailure
  return outcome access successor grant.family transition

/-- Spends a presented token and issues the next pair, or refuses it. -/
def rotate (admitted : Admitted) (presented : String) (now signedAt : Instant)
    (draws : RefreshDraws) : Serving RefreshOutcome := do
  Script.ofExcept (admitted.expect .tokenRefresh)
  match Opaque.fromWire .refresh presented with
  | none => return rejected .unusable
  | some token =>
    let presentedDigest := SecretDigest.of rotation.hash token
    match ← (SqlxRefreshTokenRepository.grantFor presentedDigest).mapError storeFailure with
    | none => return rejected .unusable
    | some grant => rotation.spend presentedDigest grant now signedAt draws

/-- Ends a chain deliberately. -/
def revoke (family : FamilyId) (now : Instant) : Serving Nat :=
  (SqlxRefreshTokenRepository.revokeWithin family now).mapError storeFailure

end RefreshRotation

/-- The calls of the service. -/
inductive RotationCall
  | begin (subject : UserId) (scopes : ScopeSet) (now signedAt : Instant)
      (family : Option FamilyId) (draws : RefreshDraws)
  | rotate (admitted : Admitted) (presented : String) (now signedAt : Instant)
      (draws : RefreshDraws)
  | revoke (family : FamilyId) (now : Instant)

inductive RotationAnswer
  | begun (tokens : RotatedTokens)
  | outcome (outcome : RefreshOutcome)
  | revoked (rows : Nat)

/-- What a call runs. -/
def RotationCall.body (rotation : RefreshRotation) :
    RotationCall → RefreshRotation.Serving RotationAnswer
  | begin subject scopes now signedAt family draws => do
      return .begun (← rotation.begin subject scopes now signedAt family draws)
  | rotate admitted presented now signedAt draws => do
      return .outcome (← rotation.rotate admitted presented now signedAt draws)
  | revoke family now => do return .revoked (← RefreshRotation.revoke family now)

/-- The service over the store. -/
def rotationWorkload (Session : Type) [DecidableEq Session] (rotation : RefreshRotation) :
    Workload Session (RefreshTables Session) RefreshSql RefreshSql.Reply RotationCall AuthError
      RotationAnswer where
  toEngine := refreshEngine Session
  body := RotationCall.body rotation
  empty := ⟨[], []⟩

end Renvor
