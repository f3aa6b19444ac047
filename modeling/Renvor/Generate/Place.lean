import Renvor.Foundation.Concurrent
import Renvor.Generate.Filesystem

/-! # Staging a project, and placing it

A project is written into a directory beside its destination, which a single
rename then moves into place. A failure removes the directory, or names it as
what is left.
-/

namespace Renvor

open Foundation
open Foundation.Interleaving (Script)
open Foundation.Concurrent (Service)

namespace Generate

inductive Code
  | stagingFailed | destinationExists | destinationRejected | placementFailed | internal
  -- of rendering, of verification and of the manifest
  | rendering

/-- A failure and the details that are published with it. -/
structure CliError where
  code : Code
  details : List (String × String)

def CliError.with (error : CliError) (key value : String) : CliError :=
  { error with details := error.details ++ [(key, value)] }

/-- The destination: a name in a parent directory. -/
structure Destination where
  parentDisplay : String
  name : String

def Destination.join (destination : Destination) (name : String) : String :=
  destination.parentDisplay ++ "/" ++ name

def Destination.displayPath (destination : Destination) : String := destination.join destination.name

/-- Where an operation of a run may fail. -/
inductive Point
  | createDir | stagingOpen | stagingCleanup | write (index : Nat) | metadata | rename | restat
  | describe | stagingDropCleanup

/-- One run of the generator: the name it draws for its staging directory, what it
writes there, and what goes wrong. -/
structure Plan where
  name : String
  items : List (String × Option (List Byte))
  filled : items ≠ []
  io : Point → Option IoErrorKind
  stuck : Point → Option (Nat × IoErrorKind)
  -- rendering, verification or the manifest
  rendering : Option CliError
  injected : Bool

/-- The tree a run stages. -/
def Plan.staged (plan : Plan) : Tree :=
  plan.items.foldl (fun tree item => tree.put item.1 item.2) []

/-- A script over the directory. What may fail gives its result. -/
abbrev Fs := Script FsOperation (fun operation => Except Empty operation.Reply) Empty

/-- Runs one operation, which may fail by itself. -/
def perform (fault : Option IoErrorKind) (operation : FsOperation) : Fs operation.Reply :=
  match fault with
  | some kind => return .error kind
  | none => Script.query operation fun
      | .ok reply => return reply

structure Staging where
  name : String
  placed : Bool
  discarded : Bool

/-- What a run that failed leaves to say: its error, and a warning of a residue. -/
structure Failure where
  error : CliError
  warning : Option String

variable (destination : Destination) (plan : Plan)

def failed (code : Code) : CliError := ⟨code, [("destination", destination.displayPath)]⟩

/-- Removes a staging directory. -/
def remove (point : Point) (name : String) : Fs (Except IoErrorKind Unit) :=
  perform (plan.io point) (.removeDirAll name (plan.stuck point))

/-- Creates the staging directory beside the destination and opens it. -/
def Staging.create : Fs (Except CliError Staging) := do
  match ← perform (plan.io .createDir) (.createDir plan.name) with
  | .error _ => return .error (failed destination .stagingFailed)
  | .ok () =>
      match ← perform (plan.io .stagingOpen) (.openDir plan.name) with
      | .ok () => return .ok ⟨plan.name, false, false⟩
      | .error openError =>
          match ← remove plan .stagingCleanup plan.name with
          | .ok () =>
              return .error ((failed destination .stagingFailed).with "openError" openError.text)
          | .error cleanupError =>
              return .error ((((failed destination .stagingFailed).with "residue"
                (destination.join plan.name)).with "openError" openError.text).with
                "cleanupError" cleanupError.text)

/-- Writes the project, path by path. -/
def fill (name : String) : Nat → List (String × Option (List Byte)) → Fs (Except CliError Unit)
  | _, [] => match plan.rendering with
      | some error => return .error error
      | none => return .ok ()
  | index, item :: rest => do
      match ← perform (plan.io (.write index)) (.write name item.1 item.2) with
      | .error _ => return .error ⟨.rendering, []⟩
      | .ok () => fill name (index + 1) rest

/-- Removes the staging directory unless it was placed or discarded. -/
def Staging.drop (staging : Staging) : Fs (Option String) :=
  if staging.placed || staging.discarded then return none
  else do
    match ← remove plan .stagingDropCleanup staging.name with
    | .ok () => return none
    | .error _ => return some staging.name

/-- Removes the staged tree and says how that went. -/
def Staging.reportCleanup (staging : Staging) (error : CliError) : Fs (CliError × Staging) := do
  match ← remove plan .stagingDropCleanup staging.name with
  | .ok () => return (error, { staging with discarded := true })
  | .error cleanup =>
      return ((error.with "residue" (destination.join staging.name)).with "cleanupError"
        cleanup.text, { staging with discarded := true })

/-- Whether another run was first, from the error and, where it does not say, from
looking again. -/
def lostTheRace (kind : IoErrorKind) : Fs Bool :=
  if kind = .directoryNotEmpty ∨ kind = .alreadyExists then return true
  else do
    match ← perform (plan.io .restat) (.symlinkMetadata destination.name) with
    | .ok _ => return true
    | .error _ => return false

/-- What a rename that failed is reported as. -/
def lost (kind : IoErrorKind) : Fs CliError := do
  if ← lostTheRace destination plan kind then do
    match ← perform (plan.io .describe) (.symlinkMetadata destination.name) with
    | .ok found =>
        return ((failed destination .destinationExists).with "rule" "destination_absent").with
          "found" found.describe
    | .error _ =>
        return ((failed destination .destinationExists).with "rule" "destination_absent").with
          "found" "unknown"
  else return failed destination .placementFailed

/-- Refuses a destination that is there, and renames. -/
def Staging.placeSteps (staging : Staging) : Fs (Except CliError Staging) :=
  if plan.injected then return .error ⟨.internal, [("injected", "place")]⟩
  else do
    match ← perform (plan.io .metadata) (.symlinkMetadata destination.name) with
    | .ok found =>
        return .error (((failed destination .destinationExists).with "rule"
          "destination_absent").with "found" found.describe)
    | .error .notFound =>
        match ← perform (plan.io .rename) (.rename staging.name destination.name) with
        | .ok () => return .ok { staging with placed := true }
        | .error kind => do
            let error ← lost destination plan kind
            return .error error
    | .error kind =>
        return .error (((failed destination .destinationRejected).with "rule"
          "destination_unverifiable").with "error" kind.text)

/-- Moves the staged tree to the destination with a single rename. -/
def Staging.place (staging : Staging) : Fs (Except Failure Unit) := do
  match ← staging.placeSteps destination plan with
  | .ok staging => do
      let _ ← staging.drop plan
      return .ok ()
  | .error error => do
      let (error, staging) ← staging.reportCleanup destination plan error
      let warning ← staging.drop plan
      return .error ⟨error, warning⟩

/-- A run: it stages the project and places it. -/
def generate : Fs (Except Failure Unit) := do
  match ← Staging.create destination plan with
  | .error error => return .error ⟨error, none⟩
  | .ok staging =>
      match ← fill plan staging.name 0 plan.items with
      | .error error => do
          let warning ← staging.drop plan
          return .error ⟨error, warning⟩
      | .ok () => staging.place destination plan

/-- A run of the generator, or a step of another process. -/
inductive Call
  | generate (plan : Plan)
  | make (name : String) (entry : Entry)
  | populate (tree : Tree)

/-- What a call runs. -/
def Call.body (destination : Destination) : Call → Fs (Except Failure Unit)
  | generate plan => Generate.generate destination plan
  | make name entry => do
      let _ ← perform none (.make name entry)
      return .ok ()
  | populate tree => do
      let _ ← perform none (.populate destination.name tree)
      return .ok ()

/-- Runs at one destination, beside other processes that may create it. -/
def calls (destination : Destination) (entries : Entries) :
    Service Entries FsOperation FsOperation.Reply Empty Call Empty (Except Failure Unit) where
  run operation entries :=
    let (reply, after) := operation.run entries
    (.ok reply, after)
  body := Call.body destination
  empty := entries

end Generate

end Renvor
