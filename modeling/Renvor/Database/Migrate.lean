import Mathlib.Algebra.Group.Nat.Defs
import Mathlib.Data.List.Sort
import Mathlib.Logic.Function.Basic
import Mathlib.Tactic.Common
import Renvor.Foundation.TransitionSystem

/-! # Migration runs against one database

A run reads the versions that are recorded as applied, waits for the lock, applies what
is pending, lets the lock go and reads again. Its report compares its migrations with
what it read first (`Renvor.Migrate.report`). The runs of any number of processes are
interleaved (`Renvor.Migrate.system`); what each step did is kept beside the state, where
no step reads it.
-/

namespace Renvor.Migrate

/-- What a file holds: a migration that cannot be undone, or one half of a pair. -/
inductive MigrationType
  | simple
  | reversibleUp
  | reversibleDown
  deriving DecidableEq

namespace MigrationType

/-- Whether it is run on the way up. -/
def isUpMigration : MigrationType → Bool
  | simple | reversibleUp => true
  | reversibleDown => false

/-- Whether it undoes another one. -/
def isDownMigration (type : MigrationType) : Bool := type = reversibleDown

end MigrationType

/-- A migration: its version, its description and its type. -/
structure Migration where
  version : Int
  description : String
  migrationType : MigrationType

/-- Whether a migration can be undone. -/
inductive Reversibility
  | reversible
  | irreversible

/-- What is reported of a migration: that this run found it missing, or that it was there before. -/
inductive MigrationOutcome
  | applied
  | alreadyApplied
  deriving DecidableEq

/-- What is reported of one migration. -/
structure MigrationStep where
  version : Int
  description : String
  reversibility : Reversibility
  outcome : MigrationOutcome
  elapsed : Nat

/-- What is reported of a run, migration by migration. -/
structure MigrationReport where
  steps : List MigrationStep

/-- The migrations that are applied moving forward. -/
def forward (migrations : List Migration) : List Migration :=
  migrations.filter (·.migrationType.isUpMigration)

/-- The versions that are run on the way up. -/
def versions (migrations : List Migration) : List Int := (forward migrations).map (·.version)

/-- Whether there is a migration that undoes a version. -/
def hasDown (migrations : List Migration) (version : Int) : Bool :=
  migrations.any fun migration =>
    migration.version = version && migration.migrationType.isDownMigration

/-- What is reported of a version, after what was read as applied at the beginning. -/
def outcome (before : List Int) (version : Int) : MigrationOutcome :=
  if before.contains version then .alreadyApplied else .applied

/-- The report, from the versions read before and after. Durations are in nanoseconds. -/
def report (migrations : List Migration) (before after : List Int) (elapsed : Nat) :
    MigrationReport :=
  let newly := max (after.length - before.length) 1
  let each := elapsed / if newly < 2 ^ 32 then newly else 1
  ⟨(forward migrations).map fun migration =>
    let outcome := outcome before migration.version
    { version := migration.version
      description := migration.description
      reversibility :=
        if hasDown migrations migration.version then .reversible else .irreversible
      outcome := outcome
      elapsed := if outcome = .applied then each else 0 }⟩

/-- How far a run has come. -/
inductive Stage
  | idle
  | waiting (before : List Int)
  | migrating (before : List Int) (pending : List Migration)
  | released (before : List Int)
  | reported (report : MigrationReport)
  | failed

variable {Run : Type*} [DecidableEq Run]

variable (Run) in
/-- The table of applied versions, the lock and the runs; then who applied what, and what
was in the table when each run first read it. -/
structure State where
  applied : List Int
  holder : Option Run
  stage : Run → Stage
  applier : Int → Option Run
  recorded : Run → List Int
  answered : Run → Bool

variable (Run) in

/-- The steps of a run. A reading that is not answered counts as a reading of nothing. -/
inductive Label
  | read (run : Run) (answered : Bool)
  | lock (run : Run)
  | apply (run : Run)
  | unlock (run : Run)
  | report (run : Run) (answered : Bool) (elapsed : Nat)
  | fail (run : Run)

/-- `SELECT version FROM _sqlx_migrations ORDER BY version`; no rows if that fails. -/
def select (applied : List Int) (answered : Bool) : List Int :=
  if answered then applied.insertionSort (· ≤ ·) else []

variable (migrations : Run → List Migration)

/-- What each step does. A run applies while it holds the lock, and no two runs hold it at once. -/
def step (state : State Run) : Label Run → Option (State Run)
  | .read run answered =>
      match state.stage run with
      | .idle => some { state with
          stage := Function.update state.stage run (.waiting (select state.applied answered))
          recorded := Function.update state.recorded run state.applied
          answered := Function.update state.answered run answered }
      | _ => none
  | .lock run =>
      match state.stage run, state.holder with
      | .waiting before, none => some { state with
          holder := some run
          stage := Function.update state.stage run (.migrating before
            ((forward (migrations run)).filter fun migration =>
              !state.applied.contains migration.version)) }
      | _, _ => none
  | .apply run =>
      match state.stage run with
      | .migrating before (migration :: pending) =>
          -- The version is the key of the table.
          if migration.version ∈ state.applied then none
          else some { state with
            applied := state.applied ++ [migration.version]
            stage := Function.update state.stage run (.migrating before pending)
            applier := Function.update state.applier migration.version (some run) }
      | _ => none
  | .unlock run =>
      match state.stage run with
      | .migrating before [] => some { state with
          holder := none
          stage := Function.update state.stage run (.released before) }
      | _ => none
  | .report run answered elapsed =>
      match state.stage run with
      | .released before => some { state with
          stage := Function.update state.stage run (.reported
            (report (migrations run) before (select state.applied answered) elapsed)) }
      | _ => none
  | .fail run =>
      match state.stage run with
      | .waiting _ => some { state with stage := Function.update state.stage run .failed }
      | .migrating _ _ => some { state with
          holder := none
          stage := Function.update state.stage run .failed }
      | _ => none

/-- A table with some versions in it, and no run begun. -/
def State.start (applied : List Int) : State Run where
  applied := applied
  holder := none
  stage _ := .idle
  applier _ := none
  recorded _ := []
  answered _ := false

/-- The runs of some processes against a database. -/
def system (applied : List Int) : Foundation.TransitionSystem (State Run) (Label Run) :=
  Foundation.TransitionSystem.stepping (· = State.start applied) (step migrations)

end Renvor.Migrate
