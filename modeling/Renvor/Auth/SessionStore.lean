import Mathlib.Data.List.Sort
import Renvor.Auth.Columns
import Renvor.Foundation.Interleaving
import Renvor.Foundation.RowSet

/-! # The SQL session store

A row for each session, known by the digest of its secret and never deleted.
Each statement is of its own, so that what it asks for and what it changes are
one. A user's row, which a session refers to, is left out.
-/

namespace Renvor

open Foundation
open Foundation.Interleaving (Script)

/-- A row of `rv_auth_session`. -/
structure SessionRow where
  id : Sixteen
  userId : UserId
  tokenHash : SecretDigest
  createdAt : Instant
  lastSeenAt : Instant
  revokedAt : Option Instant
  deriving DecidableEq

/-- The liveness predicate of the statements. -/
def SessionRow.live (row : SessionRow) (idleCutoff absoluteCutoff : Instant) : Bool :=
  row.revokedAt.isNone && idleCutoff < row.lastSeenAt && absoluteCutoff < row.createdAt

/-- The statements of the session store. -/
inductive SessionSql
  | insert (row : SessionRow)
  | touch (digest : SecretDigest) (now idleCutoff absoluteCutoff : Instant)
  | owner (digest : SecretDigest)
  | revoke (digest : SecretDigest) (now : Instant)
  | revokeAll (user : UserId) (now : Instant)
  | liveFor (user : UserId) (idleCutoff absoluteCutoff : Instant)

/-- What a statement gives back: rows affected, or columns. -/
abbrev SessionSql.Reply : SessionSql → Type
  | insert _ => Unit
  | touch .. | revoke .. | revokeAll .. => Nat
  | owner _ => Option (List Byte × Instant × Instant)
  | liveFor .. => List (List Byte × Instant)

namespace SessionSql

/-- `INSERT INTO rv_auth_session`, with its two unique keys. -/
def runInsert (row : SessionRow) (rows : List SessionRow) :
    Except DatabaseErrorKind Unit × List SessionRow :=
  if rows.any (fun other => other.id = row.id || other.tokenHash = row.tokenHash) = true then
    (.error .uniqueViolation, rows)
  else (.ok (), rows ++ [row])

/-- Changes the rows that match, and counts them. -/
def runUpdate (matched : SessionRow → Bool) (change : SessionRow → SessionRow)
    (rows : List SessionRow) : Except DatabaseErrorKind Nat × List SessionRow :=
  (.ok (rows.countP matched), updateWhere matched change rows)

def run : (statement : SessionSql) → List SessionRow →
    Except DatabaseErrorKind statement.Reply × List SessionRow
  | insert row, rows => runInsert row rows
  | touch digest now idleCutoff absoluteCutoff, rows =>
      runUpdate (fun row => row.tokenHash = digest && row.live idleCutoff absoluteCutoff)
        (fun row => { row with lastSeenAt := now }) rows
  | owner digest, rows =>
      (.ok ((rows.find? fun row => row.tokenHash = digest).map fun row =>
        (row.userId.bytes, row.createdAt, row.lastSeenAt)), rows)
  | revoke digest now, rows =>
      runUpdate (fun row => row.tokenHash = digest && row.revokedAt.isNone)
        (fun row => { row with revokedAt := some now }) rows
  | revokeAll user now, rows =>
      runUpdate (fun row => row.userId = user && row.revokedAt.isNone)
        (fun row => { row with revokedAt := some now }) rows
  | liveFor user idleCutoff absoluteCutoff, rows =>
      let live := rows.filter fun row =>
        row.userId = user && row.live idleCutoff absoluteCutoff
      (.ok ((live.mergeSort fun row other => row.lastSeenAt ≤ other.lastSeenAt).map fun row =>
        (row.tokenHash.bytes, row.lastSeenAt)), rows)

end SessionSql

structure SessionRecord where
  userId : UserId
  createdAt : Instant
  lastSeenAt : Instant

/-- A live session, addressable for eviction. -/
structure SessionHandle where
  digest : SecretDigest
  lastSeenAt : Instant

namespace SqlxSessionRepository

/-- A script over the session store. -/
abbrev Storing (Error : Type) := Script SessionSql
  (fun statement => Except DatabaseErrorKind statement.Reply) Error

/-- Runs a statement and stops at its failure. -/
def execute (statement : SessionSql) : Storing DatabaseErrorKind statement.Reply := do
  Script.ofExcept (← Script.ask statement)

/-- Stores a new session, under an identifier drawn for it. -/
def create (drawn : Option Sixteen) (user : UserId) (digest : SecretDigest) (now : Instant) :
    Storing DatabaseErrorKind Unit := do
  let id ← Script.ofExcept (randBytes drawn)
  execute (.insert {
    id
    userId := user
    tokenHash := digest
    createdAt := now
    lastSeenAt := now
    revokedAt := none })

/-- Confirms a session is live and refreshes its activity. -/
def touch (digest : SecretDigest) (now idleCutoff absoluteCutoff : Instant) :
    Storing DatabaseErrorKind (Option SessionRecord) := do
  let affected ← execute (.touch digest now idleCutoff absoluteCutoff)
  if affected = 0 then return none
  else
    match ← execute (.owner digest) with
    | none => return none
    | some (user, createdAt, lastSeenAt) =>
        let userId ← Script.ofExcept (userIdFrom user)
        return some { userId, createdAt, lastSeenAt }

/-- Revokes one session: true where this call revoked it. -/
def revoke (digest : SecretDigest) (now : Instant) : Storing DatabaseErrorKind Bool := do
  let affected ← execute (.revoke digest now)
  return affected = 1

/-- Revokes every live session of a user. -/
def revokeAllFor (user : UserId) (now : Instant) : Storing DatabaseErrorKind Nat :=
  execute (.revokeAll user now)

/-- Reads the handles of columns. -/
def handles : List (List Byte × Instant) → Except DatabaseErrorKind (List SessionHandle)
  | [] => .ok []
  | (digest, lastSeenAt) :: rest => do
      let digest ← digestFrom digest
      let rest ← handles rest
      return { digest, lastSeenAt } :: rest

/-- The user's live sessions, the least recently seen first. -/
def liveFor (user : UserId) (idleCutoff absoluteCutoff : Instant) :
    Storing DatabaseErrorKind (List SessionHandle) := do
  Script.ofExcept (handles (← execute (.liveFor user idleCutoff absoluteCutoff)))

end SqlxSessionRepository

end Renvor
