import Renvor.Auth.AccountStore
import Renvor.Auth.Admission
import Renvor.Foundation.Concurrent
import Renvor.Auth.Lifetime

/-! # Registration, login and the mailed tokens -/

namespace Renvor

open Foundation
open Foundation.Interleaving (Script)
open Foundation.Concurrent (Service)

/-- How long a password must be, and may be, in code points after normalising. -/
structure PasswordPolicy where
  minimum : Nat
  maximum : Nat
  strict : 15 ≤ minimum ∧ 64 ≤ maximum ∧ minimum ≤ maximum

namespace PasswordPolicy

def new (minimum maximum : Nat) : Except AuthError PasswordPolicy :=
  if weak : minimum < 15 ∨ maximum < 64 ∨ maximum < minimum then .error .passwordRejected
  else .ok ⟨minimum, maximum, by omega⟩

def default : PasswordPolicy := ⟨15, 256, by decide⟩

end PasswordPolicy

/-- Unicode normalisation and Argon2id. -/
structure PasswordLibrary where
  normalise : String → String
  hash : String → Sixteen → Option PasswordHash
  verify : String → PasswordHash → Bool

namespace PasswordLibrary

variable (library : PasswordLibrary)

/-- Hashes a password under a drawn salt. -/
def hashPassword (password : String) (salt : Option Sixteen) : Except AuthError PasswordHash := do
  let salt ← drawn salt
  match library.hash (library.normalise password) salt with
  | some hash => .ok hash
  | none => .error .passwordRejected

/-- Verifies against the stored hash, or against the dummy where there is none. -/
def verifyAgainstStoredOrDummy (password : String) (stored : Option PasswordHash)
    (dummy : PasswordHash) : Bool :=
  library.verify (library.normalise password) (stored.getD dummy) && stored.isSome

end PasswordLibrary

/-- How long a mailed token stays valid: at most a day. -/
structure TokenLifetime where
  lifetime : Duration
  within : 0 < lifetime ∧ lifetime ≤ .seconds 86400

def TokenLifetime.new (lifetime : Duration) : Except AuthError TokenLifetime :=
  if within : 0 < lifetime ∧ lifetime ≤ .seconds 86400 then .ok ⟨lifetime, within⟩
  else .error .passwordRejected

/-- A mailed-token flow: which token is issued, and which template carries it. -/
structure Flow where
  token : OpaqueKind
  template : MailKind

def Flow.verification : Flow := ⟨.verification, .verification⟩

def Flow.passwordReset : Flow := ⟨.passwordReset, .passwordReset⟩

structure Authenticated where
  subject : UserId
  mustChangePassword : Bool

/-- What the operator learns of a dispatch, and the requester does not. -/
inductive DispatchOutcome
  | noAccount | delivered | deliveryFailed

/-- What the entropy sources give one call: the password's salt, an identifier
for an absent account, a mailed secret, and the identifier of a new row. -/
structure AccountDraws where
  salt : Option Sixteen
  absent : Option Sixteen
  secret : Option { bytes : List Byte // bytes.length = Opaque.width }
  row : Option Sixteen

/-- The service's configuration. -/
structure AuthenticationService where
  library : PasswordLibrary
  blocklist : String → Bool
  policy : PasswordPolicy
  dummy : PasswordHash
  hash : Sha256

namespace AuthenticationService

variable (service : AuthenticationService)

/-- A repository's call. -/
def stored {Answer : Type} (call : Accounting DatabaseErrorKind Answer) :
    Accounting ServiceError Answer :=
  call.mapError ServiceError.storage

/-- A check of the service's own. -/
def checked {Answer : Type} (result : Except AuthError Answer) : Accounting ServiceError Answer :=
  Script.ofExcept (result.mapError ServiceError.refused)

/-- Refuses a password that is too short or too long. -/
def admitPassword (password : String) : Except AuthError Unit :=
  let length := (service.library.normalise password).length
  if length < service.policy.minimum ∨ service.policy.maximum < length then .error .passwordRejected
  else .ok ()

/-- The policy, then the blocklist. -/
def acceptPassword (password : String) : Except AuthError Unit := do
  service.admitPassword password
  if service.blocklist password then .error .passwordRejected else .ok ()

def register (admitted : Admitted) (email password : String) (now : Instant)
    (draws : AccountDraws) : Accounting ServiceError Registration := do
  checked (admitted.expect .register)
  checked (service.acceptPassword password)
  -- hashed first, so that a duplicate costs the same
  let hash ← checked (service.library.hashPassword password draws.salt)
  match ← stored (SqlxUserRepository.register draws.row email now) with
  | .alreadyRegistered => return .alreadyRegistered
  | .created user =>
      stored (SqlxCredentialRepository.upsert user hash false now)
      return .created user

def logIn (admitted : Admitted) (email password : String) (draws : AccountDraws) :
    Accounting ServiceError Authenticated := do
  checked (admitted.expect .logIn)
  let user ← stored (SqlxUserRepository.findByEmail email)
  let absent ← checked (drawn draws.absent)
  -- an absent account is looked up under an identifier nobody has
  let lookup := (user.map UserRecord.id).getD absent
  let credential ← stored (SqlxCredentialRepository.find lookup)
  let verified := service.library.verifyAgainstStoredOrDummy password
    (credential.map CredentialRecord.passwordHash) service.dummy
  match user, credential with
  | some user, some credential =>
      if verified then
        return { subject := user.id, mustChangePassword := credential.mustChange }
      else Script.fail (.refused .invalidCredentials)
  | _, _ => Script.fail (.refused .invalidCredentials)

/-- Hands a message to the transport, and tells whether it was taken. -/
def deliver (mail : OutgoingMail) : Accounting ServiceError Bool := do
  match ← Script.ask (AccountSql.deliver mail) with
  | .ok () => return true
  | .error _ => return false

/-- Issues a mailed token for an address that has an account. -/
def issueAndSend (table : TokenTable) (flow : Flow) (email : String) (lifetime : TokenLifetime)
    (now : Instant) (draws : AccountDraws) : Accounting ServiceError DispatchOutcome := do
  match ← stored (SqlxUserRepository.findByEmail email) with
  | none => return .noAccount
  | some user =>
      let _invalidated ← stored (SqlxSingleUseTokenRepository.invalidateAllFor table user.id now)
      let secret ← checked (Opaque.generate flow.token draws.secret)
      stored (SqlxSingleUseTokenRepository.issue table draws.row user.id
        (.of service.hash secret) (now + lifetime.lifetime))
      if ← deliver ⟨flow.template, user.email, secret⟩ then return .delivered
      else return .deliveryFailed

def sendVerification (admitted : Admitted) (email : String) (lifetime : TokenLifetime)
    (now : Instant) (draws : AccountDraws) : Accounting ServiceError DispatchOutcome := do
  checked (admitted.expect .verificationResend)
  service.issueAndSend .verification .verification email lifetime now draws

def forgotPassword (admitted : Admitted) (email : String) (lifetime : TokenLifetime)
    (now : Instant) (draws : AccountDraws) : Accounting ServiceError DispatchOutcome := do
  checked (admitted.expect .forgotPassword)
  service.issueAndSend .passwordReset .passwordReset email lifetime now draws

/-- Consumes a presented token and answers whose it was. -/
def redeem (table : TokenTable) (kind : OpaqueKind) (presented : String) (now : Instant) :
    Accounting ServiceError UserId :=
  match Opaque.fromWire kind presented with
  | none => Script.fail (.refused .credentialNoLongerValid)
  | some secret => do
      match ← stored (SqlxSingleUseTokenRepository.consume table (.of service.hash secret) now) with
      | none => Script.fail (.refused .credentialNoLongerValid)
      | some owner => return owner

def confirmVerification (admitted : Admitted) (presented : String) (now : Instant) :
    Accounting ServiceError UserId := do
  checked (admitted.expect .verificationComplete)
  let owner ← service.redeem .verification .verification presented now
  stored (SqlxUserRepository.markEmailVerified owner now)
  return owner

def resetPassword (admitted : Admitted) (presented newPassword : String) (now : Instant)
    (draws : AccountDraws) : Accounting ServiceError UserId := do
  checked (admitted.expect .resetPassword)
  -- consumed first, so that a replay is refused whatever the password
  let owner ← service.redeem .passwordReset .passwordReset presented now
  checked (service.acceptPassword newPassword)
  let hash ← checked (service.library.hashPassword newPassword draws.salt)
  stored (SqlxCredentialRepository.upsert owner hash false now)
  return owner

def currentUser (subject : UserId) : Accounting ServiceError UserRecord := do
  match ← stored (SqlxUserRepository.findById subject) with
  | some user => return user
  | none => Script.fail (.refused .credentialNoLongerValid)

end AuthenticationService

end Renvor
