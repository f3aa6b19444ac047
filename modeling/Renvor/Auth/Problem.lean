import Renvor.Auth.Abuse
import Renvor.Auth.Columns
import Renvor.Auth.Cookie
import Renvor.Http.Origin

/-! # Requests and responses of the authentication routes

A handler is given the two credential headers and what the user agent says of
the request, and no other header. A refusal is rendered from its variant alone.
-/

namespace Renvor

/-- What a handler receives. The origin is the one the request was addressed to. -/
structure Request where
  requestId : CorrelationId
  origin : EffectiveOrigin
  client : ClientIdentity
  body : List Byte
  credentials : PresentedCredentials
  fetchMetadata : FetchMetadata

/-- A request as it arrives. -/
structure IncomingRequest where
  requestId : CorrelationId
  origin : EffectiveOrigin
  client : ClientIdentity
  body : List Byte
  headers : HeaderMap

/-- What the router hands over. -/
def IncomingRequest.dispatch (incoming : IncomingRequest) : Request where
  requestId := incoming.requestId
  origin := incoming.origin
  client := incoming.client
  body := incoming.body
  credentials := {
    cookie := (incoming.headers.text "cookie").getD ""
    authorization := (incoming.headers.text "authorization").getD "" }
  fetchMetadata := .new (incoming.headers.text "origin") (incoming.headers.text "sec-fetch-site")

/-- The codes the authentication routes answer with. -/
inductive ApiErrorCode
  | validationFailed | malformedBody | authenticationRequired | notPermitted | tooManyAttempts
  | internalError
  deriving DecidableEq

/-- Where in a request a parameter was invalid. -/
inductive Location
  | path | query | header | body
  deriving DecidableEq

/-- One invalid parameter, told without the value that was sent. -/
structure InvalidParam where
  location : Location
  pointer : String
  reason : String
  deriving DecidableEq

/-- A problem document. Its other members come from the code and the correlation. -/
structure ProblemDetails where
  code : ApiErrorCode
  status : Nat
  correlationId : CorrelationId
  invalidParams : List InvalidParam
  deriving DecidableEq

/-- The values that are rendered as a body. -/
inductive ResponseBody
  | acknowledged
  | authenticated (id : UserId) (csrfToken : String)
  | problem (details : ProblemDetails)
  deriving DecidableEq

/-- A response: its status, its media type, its body and the cookie it sets. -/
structure Response where
  status : Nat
  contentType : String
  setCookie : Option SetCookie
  body : ResponseBody
  deriving DecidableEq

namespace Problem

/-- The media type of problems. -/
def mediaType : String := "application/problem+json"

/-- The code and the status of a refusal. Wrong credentials and those no longer valid share
theirs. -/
def classifyRefusal : AuthError → ApiErrorCode × Nat
  | .invalidCredentials | .credentialNoLongerValid => (.authenticationRequired, 401)
  | .notPermitted => (.notPermitted, 403)
  | .tooManyAttempts => (.tooManyAttempts, 429)
  | .passwordRejected => (.validationFailed, 400)
  | .policyMisconfigured | .entropyUnavailable => (.internalError, 500)

/-- The code and the status of an error. -/
def classify : ServiceError → ApiErrorCode × Nat
  | .storage _ => (.internalError, 500)
  | .refused refusal => classifyRefusal refusal

/-- What is told of a password that was rejected, and nothing of which rule it broke. -/
def passwordRejected : List InvalidParam :=
  [{ location := .body, pointer := "/password",
     reason := "the password does not meet policy" }]

/-- The response for a code and a status. -/
def renderCode (code : ApiErrorCode) (status : Nat) (correlationId : CorrelationId)
    (invalidParams : List InvalidParam) : Response where
  status
  contentType := mediaType
  setCookie := none
  body := .problem { code, status, correlationId, invalidParams }

/-- The response to a body that could not be read. -/
def malformedBody (correlation : CorrelationId) : Response :=
  renderCode .malformedBody 400 correlation []

/-- The response to an error of the service. A failing store is an internal error, its reason
left out. -/
def renderServiceError (error : ServiceError) (correlation : CorrelationId) : Response :=
  let (code, status) := classify error
  renderCode code status correlation
    (if error = .refused .passwordRejected then passwordRejected else [])

end Problem

/-- A JSON response. -/
def json (status : Nat) (body : ResponseBody) : Response where
  status
  contentType := "application/json"
  setCookie := none
  body

/-- A response that sets a cookie besides. -/
def withCookie (response : Response) (cookie : SetCookie) : Response :=
  { response with setCookie := some cookie }

end Renvor
