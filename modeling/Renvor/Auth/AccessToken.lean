import Renvor.Auth.Columns
import Renvor.Auth.Lifetime
import Renvor.Auth.Scope

/-! # Access tokens

The claims an issuer signs. The signature itself is a parameter.
-/

namespace Renvor

/-- An hour, which no access token may outlive. -/
def AccessLifetime.longest : Duration := .minutes 60

/-- How long an access token may live, a lifetime within that bound. -/
abbrev AccessLifetime := Lifetime AccessLifetime.longest

/-- The claims of an access token, each as the text or the number that is signed. -/
structure AccessClaims where
  iss : String
  aud : List String
  sub : String
  exp : Int
  iat : Int
  jti : String
  scope : String
  deriving DecidableEq

/-- The claims and their signed form. -/
structure AccessToken where
  claims : AccessClaims
  signed : String
  deriving DecidableEq

/-- What issues access tokens: its name, the audience, the lifetime, and how it signs. -/
structure AccessTokenIssuer where
  issuer : String
  audience : String
  lifetime : AccessLifetime
  sign : AccessClaims → Option String

/-- Issues a token for a subject carrying scopes. -/
def AccessTokenIssuer.issue (issuer : AccessTokenIssuer) (subject : UserId) (scopes : ScopeSet)
    (now : Instant) (jti : Option Sixteen) : Except AuthError AccessToken := do
  let jti ← drawn jti
  let claims := {
    iss := issuer.issuer
    aud := [issuer.audience]
    sub := subject.hex
    exp := (now + issuer.lifetime.duration : Instant).timestamp
    iat := now.timestamp
    jti := jti.hex
    scope := scopes.toClaim }
  match issuer.sign claims with
  | some signed => return { claims, signed }
  | none => .error .policyMisconfigured

/-- The token names the subject and carries the scopes. -/
theorem AccessTokenIssuer.issue_ok {issuer : AccessTokenIssuer} {subject : UserId}
    {scopes : ScopeSet} {now : Instant} {jti : Option Sixteen} {token : AccessToken}
    (issued : issuer.issue subject scopes now jti = .ok token) :
    token.claims.sub = subject.hex ∧ token.claims.scope = scopes.toClaim := by
  unfold issue at issued
  cases jti with
  | none => cases issued
  | some jti =>
      simp only [drawn, bind, Except.bind, pure, Except.pure] at issued
      split at issued
      · cases issued
        exact ⟨rfl, rfl⟩
      · cases issued

end Renvor
