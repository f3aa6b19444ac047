import Renvor.Auth.Refresh
import Renvor.Database.Error
import Renvor.Foundation.Interleaving
import Renvor.Foundation.LockedTable

/-! # The SQL refresh-token store

Two tables with row locks, the statements the store runs on them and the
transactions it opens. A user's row, which a family refers to, is left out; a
statement the database refuses for it fails as any statement may.
-/

namespace Renvor

open Foundation
open Foundation.Interleaving (Script Engine Workload)

/-- A row of `rv_auth_refresh_family`. -/
structure FamilyRow where
  id : FamilyId
  userId : UserId
  scopes : String
  createdAt : Instant
  expiresAt : Instant
  revokedAt : Option Instant

/-- A row of `rv_auth_refresh`. -/
structure TokenRow where
  id : RefreshTokenId
  familyId : FamilyId
  tokenHash : SecretDigest
  issuedAt : Instant
  expiresAt : Instant
  consumedAt : Option Instant
  replacedBy : Option RefreshTokenId
  revokedAt : Option Instant

/-- The statements of the refresh-token store. -/
inductive RefreshSql
  | insertFamily (row : FamilyRow)
  | insertToken (row : TokenRow)
  | grantFor (presented : SecretDigest)
  | locate (presented : SecretDigest)
  | lockFamily (family : FamilyId)
  | lockToken (presented : SecretDigest)
  | tombstone (family : FamilyId) (now : Instant)
  | sweep (family : FamilyId) (now : Instant)
  | consume (token : RefreshTokenId) (now : Instant) (successor : RefreshTokenId)

/-- The columns a statement answers with, or the rows it affected. -/
abbrev RefreshSql.Reply : RefreshSql → Type
  | insertFamily _ | insertToken _ => Unit
  | grantFor _ => Option (List Byte × List Byte × String × Instant)
  | locate _ => Option (List Byte)
  | lockFamily _ => Option (Instant × Option Instant)
  | lockToken _ => Option (RefreshTokenId × Instant × Option Instant × Option Instant)
  | tombstone .. | sweep .. | consume .. => Nat

/-- The two tables, with the versions their sessions work on. -/
structure RefreshTables (Session : Type) where
  families : LockedTable Session FamilyRow
  tokens : LockedTable Session TokenRow

namespace RefreshTables

variable {Session : Type} [DecidableEq Session]

/-- What a statement of a session does. -/
def run (session : Session) : (statement : RefreshSql) → RefreshTables Session →
    Option (statement.Reply × RefreshTables Session)
  | .insertFamily row, tables => do
      let families ← tables.families.insert session (fun other => other.id = row.id) row
      return ((), { tables with families := families })
  | .insertToken row, tables =>
      -- the foreign key on the family
      if (tables.families.view session).any (fun family => family.id = row.familyId) = true then do
        let tokens ← tables.tokens.insert session
          (fun other => other.id = row.id || other.tokenHash = row.tokenHash) row
        return ((), { tables with tokens := tokens })
      else none
  | .grantFor presented, tables =>
      let joined := ((tables.tokens.view session).filter fun row =>
        row.tokenHash = presented).flatMap fun token =>
          ((tables.families.view session).filter fun row => row.id = token.familyId).map
            fun family => (family.id.bytes, family.userId.bytes, family.scopes, family.expiresAt)
      some (joined.head?, tables)
  | .locate presented, tables =>
      let located := (tables.tokens.view session).find? fun row => row.tokenHash = presented
      some (located.map fun row => row.familyId.bytes, tables)
  | .lockFamily family, tables => do
      let (rows, families) ← tables.families.lock session fun row => row.id = family
      return (rows.head?.map fun row => (row.expiresAt, row.revokedAt),
        { tables with families := families })
  | .lockToken presented, tables => do
      let (rows, tokens) ← tables.tokens.lock session fun row => row.tokenHash = presented
      return (rows.head?.map fun row => (row.id, row.expiresAt, row.consumedAt, row.revokedAt),
        { tables with tokens := tokens })
  | .tombstone family now, tables => do
      let (affected, families) ← tables.families.update session
        (fun row => row.id = family && row.revokedAt.isNone)
        fun row => { row with revokedAt := some now }
      return (affected, { tables with families := families })
  | .sweep family now, tables => do
      let (affected, tokens) ← tables.tokens.update session
        (fun row => row.familyId = family && row.revokedAt.isNone)
        fun row => { row with revokedAt := some now }
      return (affected, { tables with tokens := tokens })
  | .consume token now successor, tables => do
      let (affected, tokens) ← tables.tokens.update session
        (fun row => row.id = token && row.consumedAt.isNone)
        fun row => { row with consumedAt := some now, replacedBy := some successor }
      return (affected, { tables with tokens := tokens })

def commit (session : Session) (tables : RefreshTables Session) : RefreshTables Session :=
  ⟨tables.families.commit session, tables.tokens.commit session⟩

def discard (session : Session) (tables : RefreshTables Session) : RefreshTables Session :=
  ⟨tables.families.discard session, tables.tokens.discard session⟩

end RefreshTables

def familyIdFrom : List Byte → Except DatabaseErrorKind FamilyId := sixteenFrom

def scopesFrom (claim : String) : Except DatabaseErrorKind ScopeSet :=
  (ScopeSet.parseClaim claim).mapError fun _ => .statementRejected

namespace SqlxRefreshTokenRepository

abbrev Transaction := Script RefreshSql RefreshSql.Reply DatabaseErrorKind

abbrev execute (statement : RefreshSql) : Transaction statement.Reply := Script.ask statement

/-- The grant a presented token carries, read outside any transaction. -/
def grantFor (presented : SecretDigest) : Transaction (Option RefreshGrant) := do
  match ← execute (.grantFor presented) with
  | none => return none
  | some (family, user, scopes, familyExpiresAt) =>
    let family ← Script.ofExcept (familyIdFrom family)
    let user ← Script.ofExcept (userIdFrom user)
    let scopes ← Script.ofExcept (scopesFrom scopes)
    return some { family, user, scopes, familyExpiresAt }

/-- Writes the family and its first token. -/
def writeFamily (family : NewRefreshFamily) : Transaction Unit := do
  execute (.insertFamily {
    id := family.family
    userId := family.user
    scopes := family.scopes.toClaim
    createdAt := family.createdAt
    expiresAt := family.familyExpiresAt
    revokedAt := none })
  execute (.insertToken {
    id := family.firstTokenId
    familyId := family.family
    tokenHash := family.firstToken
    issuedAt := family.createdAt
    expiresAt := family.tokenExpiresAt
    consumedAt := none
    replacedBy := none
    revokedAt := none })

/-- The replay response of `decide`: the tombstone and the sweep. -/
def respond (request : AdvanceRequest) (family : FamilyId) : Transaction RefreshTransition := do
  let _ ← execute (.tombstone family request.now)
  let revoked ← execute (.sweep family request.now)
  return .replayed revoked

/-- The rotation of `decide`: consumes the presented token and writes its
successor. -/
def succeed (request : AdvanceRequest) (family : FamilyId) (tokenId : RefreshTokenId) :
    Transaction RefreshTransition := do
  let affected ← execute (.consume tokenId request.now request.successorId)
  if affected ≠ 1 then Script.fail .statementRejected
  else
    execute (.insertToken {
      id := request.successorId
      familyId := family
      tokenHash := request.successor
      issuedAt := request.now
      expiresAt := request.successorExpiresAt
      consumedAt := none
      replacedBy := none
      revokedAt := none })
    return .advanced

/-- The transition itself: the family's lock, then the token's. -/
def decide (request : AdvanceRequest) : Transaction RefreshTransition := do
  match ← execute (.locate request.presented) with
  | none => return .unusable
  | some familyBytes =>
    let family ← Script.ofExcept (familyIdFrom familyBytes)
    match ← execute (.lockFamily family) with
    | none => return .unusable
    | some (familyExpiresAt, familyRevokedAt) =>
      if familyRevokedAt.isSome then return .familyRevoked
      else if familyExpiresAt ≤ request.now then return .unusable
      else
        match ← execute (.lockToken request.presented) with
        | none => return .unusable
        | some (tokenId, tokenExpiresAt, consumedAt, revokedAt) =>
          if consumedAt.isSome || revokedAt.isSome then respond request family
          else if tokenExpiresAt ≤ request.now then return .unusable
          else succeed request family tokenId

/-- The tombstone and the sweep of an explicit revocation. -/
def revokeWithin (family : FamilyId) (now : Instant) : Transaction Nat := do
  let _ ← execute (.tombstone family now)
  execute (.sweep family now)

end SqlxRefreshTokenRepository

/-- The calls that open a transaction. -/
inductive RefreshCall
  | beginFamily (family : NewRefreshFamily)
  | advance (request : AdvanceRequest)
  | revokeFamily (family : FamilyId) (now : Instant)

inductive RefreshAnswer
  | begun
  | transition (transition : RefreshTransition)
  | revoked (rows : Nat)

/-- The transaction a call opens. -/
def RefreshCall.body : RefreshCall → SqlxRefreshTokenRepository.Transaction RefreshAnswer
  | beginFamily family => do
      SqlxRefreshTokenRepository.writeFamily family
      return .begun
  | advance request => do return .transition (← SqlxRefreshTokenRepository.decide request)
  | revokeFamily family now => do
      return .revoked (← SqlxRefreshTokenRepository.revokeWithin family now)

/-- The tables under any number of sessions. -/
def refreshEngine (Session : Type) [DecidableEq Session] :
    Engine Session (RefreshTables Session) RefreshSql RefreshSql.Reply where
  run := RefreshTables.run
  commit := RefreshTables.commit
  discard := RefreshTables.discard

/-- The transactions of the refresh-token store. -/
def refreshWorkload (Session : Type) [DecidableEq Session] :
    Workload Session (RefreshTables Session) RefreshSql RefreshSql.Reply RefreshCall
      DatabaseErrorKind RefreshAnswer where
  toEngine := refreshEngine Session
  body := RefreshCall.body
  empty := ⟨[], []⟩

end Renvor
