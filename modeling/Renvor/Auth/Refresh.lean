import Renvor.Auth.AccessToken

/-! # Refresh tokens and their families

What the refresh-token port takes and answers. A family is one login: it carries
the user, the scopes and the absolute end of the chain. Its tokens are known by
the digest of their secret.
-/

namespace Renvor

abbrev FamilyId := Sixteen
abbrev RefreshTokenId := Sixteen

/-- A family and its first token, to be created together. -/
structure NewRefreshFamily where
  family : FamilyId
  user : UserId
  scopes : ScopeSet
  firstTokenId : RefreshTokenId
  firstToken : SecretDigest
  createdAt : Instant
  familyExpiresAt : Instant
  tokenExpiresAt : Instant

/-- What a presented refresh token is for. -/
structure RefreshGrant where
  family : FamilyId
  user : UserId
  scopes : ScopeSet
  familyExpiresAt : Instant

/-- One rotation, with the successor already generated. -/
structure AdvanceRequest where
  presented : SecretDigest
  successorId : RefreshTokenId
  successor : SecretDigest
  successorExpiresAt : Instant
  now : Instant

/-- What the store's transaction did. -/
inductive RefreshTransition
  | advanced
  | replayed (revoked : Nat)
  | familyRevoked
  | unusable

end Renvor
