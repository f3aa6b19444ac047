import Renvor.Kernel.Entropy

/-! # Audit events -/

namespace Renvor

/-- The correlation of one request: eight bytes. -/
structure CorrelationId where
  bytes : List Byte
  width : bytes.length = 8
  deriving DecidableEq

/-- Who did what is recorded: nobody that was known, or the account of a user. -/
inductive AuditActor
  | anonymous
  | account (user : Sixteen)

/-- What it was done to, as far as it was known when the event was recorded. -/
inductive AuditSubject
  | unspecified
  | account (user : Sixteen)
  | credential (reference : Sixteen)

/-- The actions the record tells apart, one for each use of the services. -/
inductive AuditAction
  | register | logIn | logOut | verificationResend | verificationComplete | passwordForgot
  | passwordReset | sessionRotate | sessionRevoke | tokenIssue | tokenRefresh
  | tokenFamilyRevoke | policyDecision | abuseRefusal

/-- Whether the action was let through. -/
inductive AuditOutcome
  | permitted | refused

/-- One event of the record, without any of the secrets that the action had to do with. -/
structure AuditEvent where
  action : AuditAction
  outcome : AuditOutcome
  actor : AuditActor
  subject : AuditSubject
  correlation : CorrelationId
  «at» : Instant

end Renvor
