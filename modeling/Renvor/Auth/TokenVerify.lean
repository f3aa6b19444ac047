import Renvor.Auth.AccessToken
import Renvor.Auth.Csrf

/-! # Verifying access tokens

The key is the verifier's own and the header's algorithm is compared with the key's.
Signatures and the token's encoding are another's, and the calendar ends
(`Renvor.Token.lastInstant`): a sum of times past its end does not come back.
-/

namespace Renvor.Token

/-- The type that the header of an access token names, so that no other token passes for one. -/
def accessTokenTyp : String := "renvor-access+jwt"

/-- The most keys that a verifier may hold at once. -/
def maxRingKeys : Nat := 8

/-- The most that clocks may be told to differ. -/
def maxSkew : Duration := .minutes 5

/-! ## Keys -/

/-- The algorithms that tokens are signed with, both of them with a public key. -/
inductive TokenAlgorithm
  | ed25519 | es256

/-- What a header may name; the two that are supported, and others. -/
inductive Algorithm
  | edDSA | es256
  | other (name : String)
  deriving DecidableEq

/-- The algorithm as the token library names it. -/
def TokenAlgorithm.backend : TokenAlgorithm → Algorithm
  | ed25519 => .edDSA
  | es256 => .es256

/-- The names that a key may have. -/
def validKeyId (identifier : String) : Bool :=
  !identifier.isEmpty && identifier.utf8ByteSize ≤ 64 && identifier.toList.all fun character =>
    character.isAlphanum || character = '.' || character = '_' || character = '-'

/-- The name of a key, which exists only where its text was accepted. -/
structure KeyId where
  text : String
  acceptable : validKeyId text = true
  deriving DecidableEq

/-- Make the name of a key of a text, or refuse it. -/
def KeyId.new (identifier : String) : Except AuthError KeyId :=
  if acceptable : validKeyId identifier = true then .ok ⟨identifier, acceptable⟩
  else .error .policyMisconfigured

/-- A key that signs, with its name and its algorithm. -/
structure SigningKey (Private : Type) where
  id : KeyId
  algorithm : TokenAlgorithm
  inner : Private

/-- A key that verifies, with its name and its algorithm. -/
structure VerifyingKey (Public : Type) where
  id : KeyId
  algorithm : TokenAlgorithm
  inner : Public

/-- One to eight keys, each with an identifier of its own. -/
structure KeyRing (Public : Type) where
  keys : List (VerifyingKey Public)
  some_key : keys ≠ []
  bounded : keys.length ≤ maxRingKeys
  distinct : (keys.map VerifyingKey.id).Nodup

/-- Make a ring of some keys, or refuse one that is empty, too large, or has a name twice. -/
def KeyRing.new {Public : Type} (keys : List (VerifyingKey Public)) :
    Except AuthError (KeyRing Public) :=
  if valid : keys ≠ [] ∧ keys.length ≤ maxRingKeys ∧ (keys.map VerifyingKey.id).Nodup then
    .ok ⟨keys, valid.1, valid.2.1, valid.2.2⟩
  else .error .policyMisconfigured

/-- The key whose identifier is exactly this. -/
def KeyRing.get {Public : Type} (ring : KeyRing Public) (kid : String) : Option (VerifyingKey Public) :=
  ring.keys.find? fun key => key.id.text = kid

/-! ## The encoding of tokens -/

/-- The header of a token, as the library decodes it. -/
structure Header where
  typ : Option String
  alg : Algorithm
  kid : Option String
  jku : Option String
  jwk : Option String
  x5u : Option String
  crit : Option (List String)
  deriving DecidableEq

/-- A header that names an algorithm. -/
def Header.new (algorithm : Algorithm) : Header :=
  ⟨some "JWT", algorithm, none, none, none, none, none⟩

/-- What the library is told to check of a token. -/
structure Validation where
  algorithms : List Algorithm
  issuers : List String
  audiences : List String
  requiredSpecClaims : List String
  validateExp : Bool
  validateNbf : Bool

/-- The errors of the library that the verifier tells apart. -/
inductive DecodeErrorKind
  | invalidIssuer | invalidAudience | invalidSignature | other

/-- What encodes, signs and decodes tokens. -/
structure Jws (Private Public : Type) where
  decodeHeader : String → Option Header
  decode : String → Public → Validation → Except DecodeErrorKind AccessClaims
  encode : Header → AccessClaims → Private → Option String

/-- The names of the claims of an access token. -/
def claimNames : List String := ["iss", "aud", "sub", "exp", "iat", "jti", "scope"]

/-- What is documented of it. A token is decoded where its signature is valid, and its
issuer and one of its audiences are allowed; an expiry that is required is a count of
seconds, which is not negative. A token whose signature is valid has the claims it was
given, for a key that belongs to the one it was signed with. -/
structure Jws.Documented {Private Public : Type} (jws : Jws Private Public)
    (valid : Public → String → Prop) (payload : String → Option AccessClaims)
    (pair : Private → Public → Prop) : Prop where
  decodes : ∀ token key validation header claims, jws.decodeHeader token = some header →
    validation.validateExp = false → validation.validateNbf = false →
    (∀ name ∈ validation.requiredSpecClaims, name ∈ claimNames) →
    (jws.decode token key validation = .ok claims ↔
      header.alg ∈ validation.algorithms ∧ valid key token ∧ payload token = some claims ∧
        ("exp" ∈ validation.requiredSpecClaims → 0 ≤ claims.exp) ∧
          claims.iss ∈ validation.issuers ∧
            ∃ audience ∈ claims.aud, audience ∈ validation.audiences)
  encodes : ∀ header claims key token, jws.encode header claims key = some token →
    jws.decodeHeader token = some header ∧ payload token = some claims ∧
      ∀ verifying, pair key verifying → valid verifying token

/-! ## Times -/

/-- The first and the last instant of the calendar. -/
def firstInstant : Instant := -8334601228800000000

/-- The last instant of the calendar. -/
def lastInstant : Instant := 8210266876799999999

/-- Whether an instant is on the calendar; arithmetic that would leave it fails. -/
def representable (instant : Instant) : Bool := firstInstant ≤ instant && instant ≤ lastInstant

/-- The instant of a timestamp, where the calendar has it. -/
def fromTimestamp (seconds : Int) : Option Instant :=
  if representable (seconds * 1000000) then some (seconds * 1000000) else none

/-- A later instant; the sum does not come back where the calendar ends before it. -/
def later (instant : Instant) (duration : Duration) : Option Instant :=
  if representable (instant + duration) then some (instant + duration) else none

/-- How far clocks may differ, within the bound. -/
structure Skew where
  duration : Duration
  nonnegative : 0 ≤ duration
  bounded : duration ≤ maxSkew

/-- Make a tolerance of a duration, or refuse it. -/
def Skew.new (tolerance : Duration) : Except AuthError Skew :=
  if within : 0 ≤ tolerance ∧ tolerance ≤ maxSkew then .ok ⟨tolerance, within.1, within.2⟩
  else .error .policyMisconfigured

/-! ## Verifying -/

/-- Why a token is rejected. The reason is recorded and not told to who presented it. -/
inductive TokenRejection
  | malformed | wrongTokenType | remoteKeyRequested | unsupportedCriticalHeader | unknownKey
  | algorithmMismatch | badSignature | malformedClaims | issuerMismatch | audienceMismatch
  | expired | issuedInTheFuture
  deriving DecidableEq

/-- The texts that may be the identifier of a token. -/
def validJwtId (value : String) : Bool :=
  value.utf8ByteSize = 32 && value.toList.all fun character =>
    ('0' ≤ character && character ≤ '9') || ('a' ≤ character && character ≤ 'f')

/-- The identifier of a token. -/
structure JwtId where
  text : String
  acceptable : validJwtId text = true
  deriving DecidableEq

/-- The identifier of a token read from its claim. -/
def JwtId.fromWire (value : String) : Except AuthError JwtId :=
  if acceptable : validJwtId value = true then .ok ⟨value, acceptable⟩
  else .error .policyMisconfigured

/-- The user of thirty-two lowercase digits. -/
def parseUserId (rendered : String) : Option UserId :=
  if rendered.utf8ByteSize ≠ 32 then none
  else do
    let bytes ← hexBytes rendered.toList
    if width : bytes.length = 16 then some ⟨bytes, width⟩ else none

/-- What is known of a token that was verified. -/
structure VerifiedToken where
  subject : UserId
  expiresAt : Instant
  scopes : ScopeSet
  id : JwtId
  deriving DecidableEq

/-- What verifies access tokens: its keys, the issuer and the audiences it expects, and its
tolerance. -/
structure AccessTokenVerifier (Public : Type) where
  issuer : String
  audiences : List String
  some_audience : audiences ≠ []
  ring : KeyRing Public
  skew : Skew

variable {Private Public : Type}

/-- The reason told for an error of the library. -/
def DecodeErrorKind.rejection : DecodeErrorKind → TokenRejection
  | invalidIssuer => .issuerMismatch
  | invalidAudience => .audienceMismatch
  | invalidSignature => .badSignature
  | other => .malformedClaims

namespace AccessTokenVerifier

variable (jws : Jws Private Public) (verifier : AccessTokenVerifier Public)

/-- What the library is told to check, which leaves the instants to the verifier. -/
def validation (key : VerifyingKey Public) : Validation where
  algorithms := [key.algorithm.backend]
  issuers := [verifier.issuer]
  audiences := verifier.audiences
  requiredSpecClaims := ["iss", "aud", "sub", "exp", "iat", "jti"]
  validateExp := false
  validateNbf := false

/-- The key of a header, after the header's own checks. -/
def select (header : Header) : Except TokenRejection (VerifyingKey Public) :=
  if header.typ ≠ some accessTokenTyp then .error .wrongTokenType
  else if header.jku.isSome || header.x5u.isSome || header.jwk.isSome then
    .error .remoteKeyRequested
  else if header.crit.isSome then .error .unsupportedCriticalHeader
  else match header.kid with
    | none => .error .unknownKey
    | some kid => match verifier.ring.get kid with
        | none => .error .unknownKey
        | some key =>
            if header.alg ≠ key.algorithm.backend then .error .algorithmMismatch else .ok key

/-- The claims, whoever they are addressed to. -/
def decoded (presented : String) : Except TokenRejection AccessClaims :=
  match jws.decodeHeader presented with
  | none => .error .malformed
  | some header => match verifier.select header with
      | .error rejection => .error rejection
      | .ok key => match jws.decode presented key.inner (verifier.validation key) with
          | .error kind => .error kind.rejection
          | .ok claims => .ok claims

/-- The claims of a token of this issuer to one of these audiences. -/
def addressed (presented : String) : Except TokenRejection AccessClaims := do
  let claims ← verifier.decoded jws presented
  if claims.iss ≠ verifier.issuer then .error .issuerMismatch
  else if !(claims.aud.any fun value => verifier.audiences.any fun allowed => allowed = value) then
    .error .audienceMismatch
  else .ok claims

/-- The claims that are left once the times are checked. -/
def remaining (claims : AccessClaims) (expiresAt : Instant) : Except TokenRejection VerifiedToken :=
  match parseUserId claims.sub with
  | none => .error .malformedClaims
  | some subject => match JwtId.fromWire claims.jti with
      | .error _ => .error .malformedClaims
      | .ok id => match ScopeSet.parseClaim claims.scope with
          | .error _ => .error .malformedClaims
          | .ok scopes => .ok { subject, expiresAt, scopes, id }

/-- The times of claims against the clock. Nothing where a sum does not come back. -/
def timely (claims : AccessClaims) (now : Instant) : Option (Except TokenRejection VerifiedToken) :=
  match fromTimestamp claims.exp with
  | none => some (.error .malformedClaims)
  | some expiresAt => match fromTimestamp claims.iat with
      | none => some (.error .malformedClaims)
      | some issuedAt => do
          let limit ← later expiresAt verifier.skew.duration
          if now > limit then some (.error .expired)
          else do
            let horizon ← later now verifier.skew.duration
            if issuedAt > horizon then some (.error .issuedInTheFuture)
            else some (remaining claims expiresAt)

/-- Verifies a presented token. -/
def verify (presented : String) (now : Instant) : Option (Except TokenRejection VerifiedToken) :=
  match verifier.addressed jws presented with
  | .error rejection => some (.error rejection)
  | .ok claims => verifier.timely claims now

end AccessTokenVerifier

/-- The header a key signs under. -/
def SigningKey.header (key : SigningKey Private) : Header :=
  { Header.new key.algorithm.backend with
    typ := some accessTokenTyp
    kid := some key.id.text }

/-- The issuer that signs with a key. -/
def issuerOf (jws : Jws Private Public) (issuer audience : String) (key : SigningKey Private)
    (lifetime : AccessLifetime) : AccessTokenIssuer where
  issuer := issuer
  audience := audience
  lifetime := lifetime
  sign claims := jws.encode key.header claims key.inner

/-- Issues a token; the expiry is a sum of times too. -/
def issue (issuer : AccessTokenIssuer) (subject : UserId) (scopes : ScopeSet) (now : Instant)
    (jti : Option Sixteen) : Option (Except AuthError AccessToken) := do
  let _ ← later now issuer.lifetime.duration
  some (issuer.issue subject scopes now jti)

end Renvor.Token
