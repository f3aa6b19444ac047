/-! # What a database failure is

The closed kinds a driver's error is classified into.
-/

namespace Renvor

inductive DatabaseErrorKind
  | acquireTimeout | connectFailed | cancelled | deadlineExceeded | statementRejected
  | uniqueViolation | foreignKeyViolation | notNullViolation | checkViolation
  | transactionConflict | notFound | commitFailed | rollbackFailed
  | migrationChecksumMismatch | migrationDirty | migrationIrreversible | migrationFailed
  | migrationLockTimeout | notReady | typeMismatch | poolClosed | unclassified
  deriving DecidableEq

end Renvor
