import Renvor.Database.Error

/-! # What an authentication operation refuses with -/

namespace Renvor

inductive AuthError
  | invalidCredentials | credentialNoLongerValid | notPermitted | tooManyAttempts
  | passwordRejected | policyMisconfigured | entropyUnavailable
  deriving DecidableEq

/-- A refusal, or a failure of the store. -/
inductive ServiceError
  | refused (error : AuthError)
  | storage (kind : DatabaseErrorKind)
  deriving DecidableEq

end Renvor
