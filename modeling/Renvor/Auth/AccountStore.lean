import Renvor.Auth.Columns
import Renvor.Database.Engine
import Renvor.Foundation.Interleaving
import Renvor.Foundation.RowSet

/-! # The SQL account store

Users, their credentials, and the tokens mailed to them. Each statement is of
its own, but for a credential's delete and insert, which are one transaction.
How the engine compares two addresses is left open.
-/

namespace Renvor

open Foundation
open Foundation.Interleaving (Script)

/-- A row of `rv_auth_user`. -/
structure UserRow where
  id : UserId
  email : String
  emailVerifiedAt : Option Instant
  createdAt : Instant
  updatedAt : Instant
  deriving DecidableEq

/-- A stored password hash, in PHC string format. -/
structure PasswordHash where
  phc : String

/-- A row of `rv_auth_credential`. -/
structure CredentialRow where
  userId : UserId
  passwordHash : PasswordHash
  mustChange : Bool
  updatedAt : Instant

/-- Which single-use token table a repository addresses. -/
inductive TokenTable
  | verification | passwordReset
  deriving DecidableEq

/-- A row of a single-use token table. -/
structure SingleUseTokenRow where
  id : Sixteen
  userId : UserId
  tokenHash : SecretDigest
  expiresAt : Instant
  consumedAt : Option Instant

structure AccountTables where
  users : List UserRow
  credentials : List CredentialRow
  tokens : TokenTable → List SingleUseTokenRow

def AccountTables.empty : AccountTables := ⟨[], [], fun _ => []⟩

/-- Which mail this is. -/
inductive MailKind
  | verification | passwordReset

/-- A message for the mail transport. -/
structure OutgoingMail where
  kind : MailKind
  recipient : String
  token : Opaque

/-- The statements of the account store, and the mail transport's one call. -/
inductive AccountSql
  | insertUser (row : UserRow)
  | userByEmail (email : String)
  | userById (id : UserId)
  | verifyEmail (id : UserId) (now : Instant)
  | replaceCredential (row : CredentialRow)
  | credentialFor (id : UserId)
  | insertToken (table : TokenTable) (row : SingleUseTokenRow)
  | invalidate (table : TokenTable) (user : UserId) (now : Instant)
  | consume (table : TokenTable) (digest : SecretDigest) (now : Instant)
  | tokenOwner (table : TokenTable) (digest : SecretDigest)
  | deliver (mail : OutgoingMail)

/-- What a statement gives back: rows affected, or columns. -/
abbrev AccountSql.Reply : AccountSql → Type
  | insertUser _ | replaceCredential _ | insertToken .. | deliver _ => Unit
  | userByEmail _ | userById _ => Option (List Byte × String × Option Instant)
  | verifyEmail .. | invalidate .. | consume .. => Nat
  | credentialFor _ => Option (PasswordHash × Bool)
  | tokenOwner .. => Option (List Byte)

namespace AccountSql

/-- The columns a user is read by. -/
def columns (row : UserRow) : List Byte × String × Option Instant :=
  (row.id.bytes, row.email, row.emailVerifiedAt)

/-- The row is a user's. -/
def known (tables : AccountTables) (user : UserId) : Bool :=
  tables.users.any fun row => row.id = user

/-- Changes the tokens of a table that match, and counts them. -/
def runTokens (table : TokenTable) (matched : SingleUseTokenRow → Bool) (now : Instant)
    (tables : AccountTables) : Except DatabaseErrorKind Nat × AccountTables :=
  (.ok ((tables.tokens table).countP matched), { tables with
    tokens := Function.update tables.tokens table
      (updateWhere matched (fun row => { row with consumedAt := some now })
        (tables.tokens table)) })

def run (engine : SqlEngine) : (statement : AccountSql) → AccountTables →
    Except DatabaseErrorKind statement.Reply × AccountTables
  | insertUser row, tables =>
      if tables.users.any (fun other => other.id = row.id || engine.same other.email row.email) then
        (.error .uniqueViolation, tables)
      else (.ok (), { tables with users := tables.users ++ [row] })
  | userByEmail email, tables =>
      (.ok ((tables.users.find? fun row => engine.same row.email email).map columns), tables)
  | userById id, tables =>
      (.ok ((tables.users.find? fun row => row.id = id).map columns), tables)
  | verifyEmail id now, tables =>
      (.ok (tables.users.countP fun row => row.id = id), { tables with
        users := updateWhere (fun row => row.id = id)
          (fun row => { row with
            emailVerifiedAt := some (row.emailVerifiedAt.getD now), updatedAt := now })
          tables.users })
  | replaceCredential row, tables =>
      if known tables row.userId then
        (.ok (), { tables with
          credentials := tables.credentials.filter (fun other => other.userId ≠ row.userId) ++
            [row] })
      else (.error .foreignKeyViolation, tables)
  | credentialFor id, tables =>
      (.ok ((tables.credentials.find? fun row => row.userId = id).map fun row =>
        (row.passwordHash, row.mustChange)), tables)
  | insertToken table row, tables =>
      if (tables.tokens table).any fun other => other.id = row.id || other.tokenHash = row.tokenHash
      then (.error .uniqueViolation, tables)
      else if known tables row.userId then
        (.ok (), { tables with
          tokens := Function.update tables.tokens table (tables.tokens table ++ [row]) })
      else (.error .foreignKeyViolation, tables)
  | invalidate table user now, tables =>
      runTokens table (fun row => row.userId = user && row.consumedAt.isNone) now tables
  | consume table digest now, tables =>
      runTokens table (fun row => row.tokenHash = digest && row.consumedAt.isNone &&
        now < row.expiresAt) now tables
  | tokenOwner table digest, tables =>
      (.ok (((tables.tokens table).find? fun row => row.tokenHash = digest).map fun row =>
        row.userId.bytes), tables)
  | deliver _, tables => (.ok (), tables)

end AccountSql

/-- A user, as the domain sees it. -/
structure UserRecord where
  id : UserId
  email : String
  emailVerifiedAt : Option Instant

structure CredentialRecord where
  userId : UserId
  passwordHash : PasswordHash
  mustChange : Bool

/-- Whether a registration created the account or found it. -/
inductive Registration
  | created (user : UserId)
  | alreadyRegistered

/-- A script over the account store. -/
abbrev Accounting (Error : Type) := Script AccountSql
  (fun statement => Except DatabaseErrorKind statement.Reply) Error

/-- Runs a statement and stops at its failure. -/
def AccountSql.execute (statement : AccountSql) : Accounting DatabaseErrorKind statement.Reply := do
  Script.ofExcept (← Script.ask statement)

/-- Reads a user from its columns. -/
def intoUser : List Byte × String × Option Instant → Except DatabaseErrorKind UserRecord
  | (id, email, emailVerifiedAt) => do
      let id ← userIdFrom id
      return { id, email, emailVerifiedAt }

namespace SqlxUserRepository

def register (drawn : Option Sixteen) (email : String) (now : Instant) :
    Accounting DatabaseErrorKind Registration := do
  let id ← Script.ofExcept (randBytes drawn)
  let row : UserRow := {
    id
    email
    emailVerifiedAt := none
    createdAt := now
    updatedAt := now }
  match ← Script.ask (AccountSql.insertUser row) with
  | .ok () => return .created id
  | .error .uniqueViolation => return .alreadyRegistered
  | .error kind => Script.fail kind

def findByEmail (email : String) : Accounting DatabaseErrorKind (Option UserRecord) := do
  match ← AccountSql.execute (.userByEmail email) with
  | none => return none
  | some row => some <$> Script.ofExcept (intoUser row)

def findById (id : UserId) : Accounting DatabaseErrorKind (Option UserRecord) := do
  match ← AccountSql.execute (.userById id) with
  | none => return none
  | some row => some <$> Script.ofExcept (intoUser row)

def markEmailVerified (id : UserId) (now : Instant) : Accounting DatabaseErrorKind Unit := do
  let _affected ← AccountSql.execute (.verifyEmail id now)
  return ()

end SqlxUserRepository

namespace SqlxCredentialRepository

def upsert (user : UserId) (hash : PasswordHash) (mustChange : Bool) (now : Instant) :
    Accounting DatabaseErrorKind Unit :=
  AccountSql.execute (.replaceCredential {
    userId := user, passwordHash := hash, mustChange, updatedAt := now })

def find (user : UserId) : Accounting DatabaseErrorKind (Option CredentialRecord) := do
  match ← AccountSql.execute (.credentialFor user) with
  | none => return none
  | some (passwordHash, mustChange) => return some { userId := user, passwordHash, mustChange }

end SqlxCredentialRepository

namespace SqlxSingleUseTokenRepository

variable (table : TokenTable)

def issue (drawn : Option Sixteen) (user : UserId) (digest : SecretDigest) (expiresAt : Instant) :
    Accounting DatabaseErrorKind Unit := do
  let id ← Script.ofExcept (randBytes drawn)
  AccountSql.execute (.insertToken table {
    id
    userId := user
    tokenHash := digest
    expiresAt
    consumedAt := none })

def invalidateAllFor (user : UserId) (now : Instant) : Accounting DatabaseErrorKind Nat :=
  AccountSql.execute (.invalidate table user now)

/-- Consumes a token and answers whose it was. -/
def consume (digest : SecretDigest) (now : Instant) :
    Accounting DatabaseErrorKind (Option UserId) := do
  let affected ← AccountSql.execute (.consume table digest now)
  if affected = 0 then return none
  else
    match ← AccountSql.execute (.tokenOwner table digest) with
    | none => return none
    | some user => some <$> Script.ofExcept (userIdFrom user)

end SqlxSingleUseTokenRepository

end Renvor
