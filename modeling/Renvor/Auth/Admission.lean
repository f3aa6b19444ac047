import Renvor.Auth.Error

/-! # Admissions to the guarded flows -/

namespace Renvor

/-- The flows an abuse control guards. -/
inductive AttemptFlow
  | register | logIn | verificationResend | verificationComplete | forgotPassword
  | resetPassword | tokenRefresh
  deriving DecidableEq

/-- What an abuse control gives a request it lets through. -/
structure Admitted where
  flow : AttemptFlow

/-- Refuses unless this admits the expected flow. -/
def Admitted.expect (admitted : Admitted) (expected : AttemptFlow) : Except AuthError Unit :=
  if admitted.flow = expected then .ok () else .error .policyMisconfigured

end Renvor
