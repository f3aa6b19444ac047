import Renvor.Auth.Csrf
import Renvor.Auth.Problem
import Renvor.Auth.Session

/-! # The logout route

The one operation that a cookie alone authenticates and that changes something.
-/

namespace Renvor

open Foundation
open Foundation.Interleaving (Script)
open Foundation.Concurrent (alone Fate)

structure LogoutRequest where
  csrfToken : String

/-- What the route uses: the session service, the key of the tokens, their hash,
and the reader of its body. -/
structure LogoutEndpoints where
  sessions : SessionService
  csrf : CsrfKey
  mac : Mac
  readBody : List Byte → Option LogoutRequest

/-- The user agent said the request is cross-site, or gave another origin. -/
def crossSiteRefused (request : Request) : Bool :=
  let metadata := request.fetchMetadata
  if metadata.secFetchSite = some .crossSite then true
  else match metadata.effectiveOrigin with
    | some origin => origin ≠ request.origin
    | none => metadata.origin.isSome

namespace LogoutEndpoints

variable (endpoints : LogoutEndpoints)

/-- The checks of a request that its cookie authenticates. -/
def check (request : Request) : Except Response Unit :=
  let refuse := fun error => Problem.renderServiceError (.refused error) request.requestId
  if crossSiteRefused request then .error (refuse .notPermitted)
  else match endpoints.readBody request.body with
    | none => .error (Problem.malformedBody request.requestId)
    | some body => match endpoints.sessions.library.read request.credentials.cookie with
        | .error _ => .error (refuse .credentialNoLongerValid)
        | .ok secret => match Csrf.verify endpoints.mac endpoints.csrf
            (.of endpoints.sessions.hash secret) [body.csrfToken] with
            | .error _ => .error (refuse .notPermitted)
            | .ok () => .ok ()

/-- The credential a request is taken to be authenticated by. -/
def credential (request : Request) : Credential :=
  if request.credentials.authorization.isEmpty then .cookie else .bearerToken

/-- `POST /auth/logout`. -/
def logOut (request : Request) (now : Instant) : SqlxSessionRepository.Storing Empty Response :=
  let refused := if Csrf.isRequired "POST" (credential request) then endpoints.check request
    else .ok ()
  match refused with
  | .error response => return response
  | .ok () => (endpoints.sessions.logOut request.credentials.cookie now).catching fun
      | .ok (cookie, _) => return withCookie (json 200 .acknowledged) cookie
      | .error error => return Problem.renderServiceError error request.requestId

end LogoutEndpoints

end Renvor
