import Renvor.Auth.Abuse
import Renvor.Foundation.RowSet
import Renvor.Foundation.Transaction
import Renvor.Kernel.Arithmetic

/-! # The SQL attempt store

One row for each dimension and bucket, made by an upsert that changes nothing,
locked, and written with counts computed outside the database.
-/

namespace Renvor

open Foundation

/-- A row of `rv_auth_attempt`. -/
structure AttemptRow where
  dimension : Int
  bucket : Int
  windowStart : Instant
  currentCount : Int
  previousCount : Int
  expiresAt : Instant

/-- The row's primary key. -/
def AttemptRow.key (row : AttemptRow) : Int × Int := (row.dimension, row.bucket)

/-- The checks of the table. -/
def AttemptRow.accepted (row : AttemptRow) : Bool :=
  1 ≤ row.dimension && row.dimension ≤ 12 && 0 ≤ row.bucket && row.bucket < 1048576 &&
    0 ≤ row.currentCount && 0 ≤ row.previousCount

/-- What a statement does to the table, or why it fails. -/
abbrev AttemptStatement (α : Type) :=
  List AttemptRow → Except DatabaseErrorKind (α × List AttemptRow)

namespace AttemptTable

/-- `INSERT INTO rv_auth_attempt … ON CONFLICT (dimension, bucket) DO NOTHING`. -/
def ensure (row : AttemptRow) : AttemptStatement Unit := fun rows =>
  if rows.any (fun other => other.key = row.key) = true then .ok ((), rows)
  else if row.accepted = true then .ok ((), row :: rows)
  else .error .checkViolation

/-- `SELECT … WHERE dimension = ? AND bucket = ? FOR UPDATE`. -/
def lock (key : Int × Int) : AttemptStatement (Option (Instant × Int × Int)) := fun rows =>
  let held := rows.find? fun row => row.key = key
  .ok (held.map fun row => (row.windowStart, row.currentCount, row.previousCount), rows)

/-- `UPDATE rv_auth_attempt SET … WHERE dimension = ? AND bucket = ?`. -/
def write (key : Int × Int) (windowStart : Instant) (current previous : Int)
    (expiresAt : Instant) : AttemptStatement Nat := fun rows =>
  .ok ((rows.filter fun row => row.key = key).length,
    updateWhere (fun row => row.key = key) (fun row => { row with
      windowStart, currentCount := current, previousCount := previous, expiresAt }) rows)

/-- `DELETE FROM rv_auth_attempt WHERE dimension = ? AND bucket >= ? AND
bucket < ? AND expires_at <= ?`. -/
def deleteExpired (dimension lower upper : Int) (now : Instant) : AttemptStatement Nat :=
  fun rows =>
    let matched := fun row : AttemptRow =>
      row.dimension = dimension && lower ≤ row.bucket && row.bucket < upper && row.expiresAt ≤ now
    .ok ((rows.filter matched).length, rows.filter fun row => !matched row)

end AttemptTable

/-- A call in progress. -/
abbrev AttemptClient (α : Type) :=
  Client DatabaseErrorKind (List AttemptRow) Unit DatabaseErrorKind α

/-- The counts an observation leaves where a row reads like this. -/
def AttemptObservation.next (observation : AttemptObservation) (storedStart : Instant)
    (current previous : Nat) : Nat × Nat :=
  if storedStart = observation.windowStart then
    (min (current + 1) AttemptState.ceiling, previous)
  -- the window rolled by one: the old count becomes the tail
  else if storedStart = observation.previousWindowStart then (1, current)
  else (1, 0)

namespace SqlxAttemptRepository

/-- A bucket's number in its column. -/
def bucketNumber (bucket : AttemptBucket) : Except DatabaseErrorKind Int :=
  if (bucket.index : Int) ≤ i32Max then .ok bucket.index else .error .statementRejected

/-- A count in its column. -/
def countNumber (count : Nat) : Int := (min count AttemptState.ceiling : Nat)

/-- The decision of `count_within` on the locked row, and the write. -/
def decide (observation : AttemptObservation) (key : Int × Int) (storedStart : Instant)
    (storedCurrent storedPrevious : Int) : AttemptClient AttemptOutcome :=
  if storedStart > observation.windowStart then return .clockRegressed
  else do
    let counts := observation.next storedStart storedCurrent.toNat storedPrevious.toNat
    let affected ← Client.query id (AttemptTable.write key observation.windowStart
      (countNumber counts.1) (countNumber counts.2) observation.expiresAt)
    if affected ≠ 1 then Client.fail .statementRejected
    else return .counted {
      current := counts.1, previous := counts.2, windowStart := observation.windowStart }

/-- The whole transition, inside a transaction. -/
def countWithin (observation : AttemptObservation) : AttemptClient AttemptOutcome := do
  let dimension := observation.dimension.code
  let bucket ← Client.ofExcept (bucketNumber observation.bucket)
  Client.query id (AttemptTable.ensure {
    dimension
    bucket
    windowStart := observation.windowStart
    currentCount := 0
    previousCount := 0
    expiresAt := observation.expiresAt })
  match ← Client.query id (AttemptTable.lock (dimension, bucket)) with
  | none => Client.fail .statementRejected
  | some (storedStart, storedCurrent, storedPrevious) =>
      decide observation (dimension, bucket) storedStart storedCurrent storedPrevious

def observe (observation : AttemptObservation) : AttemptClient AttemptOutcome := do
  Client.begin id
  let outcome ← countWithin observation
  Client.commit id
  return outcome

/-- Deletes the expired rows of a range of buckets. -/
def prune (dimension : AttemptDimension) (lower count : Nat) (now : Instant) : AttemptClient Nat :=
  Client.autocommit id
    (AttemptTable.deleteExpired dimension.code lower (lower + count : Nat) now)

/-- A call of its own, some of whose statements may fail: its result, and what it
leaves committed. -/
def perform {α : Type} (faults : Nat → Option DatabaseErrorKind) (rows : List AttemptRow)
    (call : AttemptClient α) : Except DatabaseErrorKind α × List AttemptRow :=
  let (result, session) := call faults (.start rows ())
  (result, session.committed)

end SqlxAttemptRepository

end Renvor
