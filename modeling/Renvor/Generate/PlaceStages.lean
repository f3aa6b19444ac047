import Renvor.Generate.Place

/-! # How far a run has come

A run asks for its operations in one order, all on its own staging directory and
on the destination (`Renvor.Generate.staging`).
-/

namespace Renvor.Generate

open Foundation
open Foundation.Interleaving (Script)
open Foundation.Concurrent (Conforms)

/-- How far a call has come, by what it left in the directory. -/
inductive Stage
  | opening
  -- the staging directory is there, and has yet to be opened
  | made
  | filling (tree : Tree)
  | placed
  -- the staging directory is removed, or could not be
  | cleared | left

/-- The stages of a run that has a staging directory. -/
def Stage.Held : Stage → Prop
  | made | filling _ => True
  | _ => False

/-- The failure names the staging directory as what is left. -/
def Failure.Reports (destination : Destination) (plan : Plan) (failure : Failure) : Prop :=
  ("residue", destination.join plan.name) ∈ failure.error.details ∨ failure.warning = some plan.name

section Staging

variable (destination : Destination)

/-- What a call may ask for in a stage. -/
def allows : Call → Stage → FsOperation → Prop
  | .generate plan, .opening, operation => operation = .createDir plan.name
  | .generate plan, .made, operation =>
      operation = .openDir plan.name ∨ ∃ stuck, operation = .removeDirAll plan.name stuck
  | .generate plan, .filling tree, operation =>
      (∃ path content, operation = .write plan.name path content) ∨
        (tree = plan.staged ∧ (operation = .symlinkMetadata destination.name ∨
          operation = .rename plan.name destination.name)) ∨
        ∃ stuck, operation = .removeDirAll plan.name stuck
  | .make name entry, _, operation => operation = .make name entry
  | .populate tree, _, operation => operation = .populate destination.name tree
  | _, _, _ => False

/-- The stage a reply takes a run to. -/
def advance : Stage → (operation : FsOperation) → operation.Reply → Stage
  | _, .createDir _, .ok () => .made
  | _, .openDir _, .ok () => .filling []
  | .filling tree, .write _ path content, .ok () => .filling (tree.put path content)
  | _, .rename .., .ok () => .placed
  | _, .removeDirAll .., .ok () => .cleared
  | _, .removeDirAll .., .error _ => .left
  | stage, _, _ => stage

/-- The stage after an operation was answered. -/
def next (_ : Call) (stage : Stage) (operation : FsOperation) :
    Except Empty operation.Reply → Stage
  | .ok reply => advance stage operation reply

/-- The stages a call is done in. -/
def ends : Call → Except Failure Unit → Stage → Prop
  | .generate _, .ok (), stage => stage = .placed
  | .generate plan, .error failure, stage =>
      stage = .opening ∨ stage = .cleared ∨ failure.Reports destination plan
  | _, _, _ => True

end Staging

variable {destination : Destination} {plan : Plan}

/-- A conforming script of a call. -/
abbrev Follows {Answer : Type} (destination : Destination) (call : Call)
    (ends : Answer → Stage → Prop) (stage : Stage) (script : Fs Answer) : Prop :=
  Conforms (allows destination call) (next call) ends stage script

/-- One operation is within what its stage allows, and leads to the stage told for its answer. -/
theorem perform_follows {call : Call} {stage : Stage} {operation : FsOperation}
    {fault : Option IoErrorKind} {ends : operation.Reply → Stage → Prop}
    (allowed : allows destination call stage operation)
    (told : ∀ reply, ends reply (advance stage operation reply))
    (faulted : ∀ kind, ends (.error kind) stage) :
    Follows destination call ends stage (perform fault operation) := by
  cases fault with
  | some kind => exact faulted kind
  | none =>
      refine ⟨allowed, fun reply => ?_⟩
      cases reply with
      | error impossible => cases impossible
      | ok reply => exact told reply

/-- A call that holds a staging directory may remove it. -/
theorem allows_remove {stage : Stage} (held : stage.Held) (stuck : Option (Nat × IoErrorKind)) :
    allows destination (.generate plan) stage (.removeDirAll plan.name stuck) := by
  cases stage with
  | made => exact .inr ⟨stuck, rfl⟩
  | filling tree => exact .inr (.inr ⟨stuck, rfl⟩)
  | opening | placed | cleared | left => exact held.elim

/-- A removal that works clears the staging directory. -/
theorem remove_follows {stage : Stage} (held : stage.Held) (point : Point) :
    Follows destination (.generate plan) (fun result reached => result = .ok () → reached = .cleared)
      stage (remove plan point plan.name) := by
  apply perform_follows (allows_remove held _)
  · rintro (kind | ⟨⟩) same
    · cases same
    · rfl
  · rintro kind ⟨⟩

/-- Creating the staging directory leaves it there to be filled, or reports why not and what
stayed. -/
theorem create_follows :
    Follows destination (.generate plan) (fun result stage => match result with
        | .ok staging => staging = ⟨plan.name, false, false⟩ ∧ stage = .filling []
        | .error error => stage = .opening ∨ stage = .cleared ∨
            ("residue", destination.join plan.name) ∈ error.details)
      .opening (Staging.create destination plan) := by
  have creates : Follows destination (.generate plan)
      (fun result stage => stage = if result = .ok () then .made else .opening) .opening
      (perform (plan.io .createDir) (.createDir plan.name)) := by
    apply perform_follows
    · exact rfl
    · rintro (kind | ⟨⟩) <;> rfl
    · exact fun kind => rfl
  apply creates.bind
  rintro (kind | ⟨⟩) _ rfl
  · exact .inl rfl
  · have opens : Follows destination (.generate plan)
        (fun result stage => stage = if result = .ok () then .filling [] else .made) .made
        (perform (plan.io .stagingOpen) (.openDir plan.name)) := by
      apply perform_follows
      · exact .inl rfl
      · rintro (kind | ⟨⟩) <;> rfl
      · exact fun kind => rfl
    apply opens.bind
    rintro (openError | ⟨⟩) _ rfl
    · have removes : Follows destination (.generate plan)
          (fun result reached => result = .ok () → reached = .cleared) .made
          (remove plan .stagingCleanup plan.name) := by
        apply remove_follows
        exact trivial
      apply removes.bind
      rintro (cleanupError | ⟨⟩) reached cleared
      · exact .inr (.inr (by simp [CliError.with]))
      · exact .inr (.inl (cleared rfl))
    · exact ⟨rfl, rfl⟩

/-- Filling writes the files one by one, by induction on those that are left. -/
theorem fill_follows (items : List (String × Option (List Byte))) (index : Nat) (tree : Tree) :
    Follows destination (.generate plan) (fun result stage => match result with
        | .ok () => stage = .filling (items.foldl (fun tree item => tree.put item.1 item.2) tree)
        | .error _ => stage.Held)
      (.filling tree) (fill plan plan.name index items) := by
  induction items generalizing index tree with
  | nil =>
      unfold fill
      cases plan.rendering with
      | some error => trivial
      | none => exact rfl
  | cons item rest ih =>
      have writes : Follows destination (.generate plan)
          (fun result stage => stage = .filling (if result = .ok () then tree.put item.1 item.2
            else tree)) (.filling tree)
          (perform (plan.io (.write index)) (.write plan.name item.1 item.2)) := by
        apply perform_follows
        · exact .inl ⟨_, _, rfl⟩
        · rintro (kind | ⟨⟩) <;> rfl
        · exact fun kind => rfl
      apply writes.bind
      rintro (kind | ⟨⟩) _ rfl
      · trivial
      · exact ih (index + 1) _

/-- What is dropped is removed, or warned of. -/
theorem drop_follows {stage : Stage} (held : stage.Held) :
    Follows destination (.generate plan)
      (fun warning reached => reached = .cleared ∨ warning = some plan.name) stage
      ((Staging.mk plan.name false false).drop plan) := by
  apply (remove_follows held .stagingDropCleanup).bind
  rintro (kind | ⟨⟩) reached cleared
  · exact .inr rfl
  · exact .inl (cleared rfl)

/-- Dropping a staging directory that was placed or discarded does nothing. -/
theorem drop_nothing {call : Call} {ends : Option String → Stage → Prop} {staging : Staging}
    {stage : Stage} (done : (staging.placed || staging.discarded) = true) (kept : ends none stage) :
    Follows destination call ends stage (staging.drop plan) := by
  unfold Staging.drop
  rw [if_pos done]
  exact kept

/-- Cleaning up after an error removes the staging directory, or reports that it stayed. -/
theorem reportCleanup_follows {stage : Stage} (held : stage.Held) (error : CliError) :
    Follows destination (.generate plan) (fun reported reached => reported.2.discarded = true ∧
        (reached = .cleared ∨ ("residue", destination.join plan.name) ∈ reported.1.details)) stage
      ((Staging.mk plan.name false false).reportCleanup destination plan error) := by
  apply (remove_follows held .stagingDropCleanup).bind
  rintro (kind | ⟨⟩) reached cleared
  · exact ⟨rfl, .inr (by simp [CliError.with])⟩
  · exact ⟨rfl, .inl (cleared rfl)⟩

/-- Looking at the destination changes nothing. -/
theorem metadata_follows (fault : Option IoErrorKind) :
    Follows destination (.generate plan) (fun _ reached => reached = .filling plan.staged)
      (.filling plan.staged) (perform fault (.symlinkMetadata destination.name)) := by
  apply perform_follows
  · exact .inr (.inl ⟨rfl, .inl rfl⟩)
  · rintro (kind | found) <;> rfl
  · exact fun _ => rfl

/-- Losing the race for the destination leaves the staging directory as it was filled. -/
theorem lost_follows (kind : IoErrorKind) :
    Follows destination (.generate plan) (fun _ reached => reached = .filling plan.staged)
      (.filling plan.staged) (lost destination plan kind) := by
  have races : Follows destination (.generate plan)
      (fun _ reached => reached = .filling plan.staged) (.filling plan.staged)
      (lostTheRace destination plan kind) := by
    unfold lostTheRace
    split
    · exact rfl
    · apply (metadata_follows _).bind
      rintro (kind | found) _ rfl <;> exact rfl
  apply races.bind
  rintro (_ | _) _ rfl
  · exact rfl
  · apply (metadata_follows _).bind
    rintro (kind | found) _ rfl <;> exact rfl

/-- Placing renames the staging directory, or leaves it in place with an error. -/
theorem placeSteps_follows :
    Follows destination (.generate plan) (fun result stage => match result with
        | .ok staging => staging.placed = true ∧ stage = .placed
        | .error _ => stage.Held)
      (.filling plan.staged) ((Staging.mk plan.name false false).placeSteps destination plan) := by
  unfold Staging.placeSteps
  split
  · trivial
  · apply (metadata_follows _).bind
    rintro (kind | found) _ rfl
    · have renames : Follows destination (.generate plan)
          (fun result reached => reached = if result = .ok () then .placed
            else .filling plan.staged) (.filling plan.staged)
          (perform (plan.io .rename) (.rename plan.name destination.name)) := by
        apply perform_follows
        · exact .inr (.inl ⟨rfl, .inr rfl⟩)
        · rintro (kind | ⟨⟩) <;> rfl
        · exact fun _ => rfl
      cases kind with
      | notFound =>
          apply renames.bind
          rintro (kind | ⟨⟩) _ rfl
          · apply (lost_follows kind).bind
            rintro error _ rfl
            trivial
          · exact ⟨rfl, rfl⟩
      | alreadyExists | permissionDenied | directoryNotEmpty | notADirectory | other => trivial
    · trivial

/-- Placing ends with the directory placed, or with the error and what stayed. -/
theorem place_follows :
    Follows destination (.generate plan) (ends destination (.generate plan)) (.filling plan.staged)
      ((Staging.mk plan.name false false).place destination plan) := by
  apply placeSteps_follows.bind
  rintro (error | staging) stage reached
  · apply (@reportCleanup_follows destination _ _ reached error).bind
    rintro ⟨error, staging⟩ stage ⟨discarded, cleared⟩
    have drops : Follows destination (.generate plan) (fun _ later => later = stage) stage
        (staging.drop plan) := by
      apply drop_nothing
      · rw [Bool.or_eq_true]
        exact .inr discarded
      · rfl
    apply drops.bind
    rintro warning _ rfl
    exact .inr (cleared.imp_right .inl)
  · obtain ⟨placed, rfl⟩ := reached
    have drops : Follows destination (.generate plan) (fun _ later => later = .placed) .placed
        (staging.drop plan) := by
      apply drop_nothing
      · rw [Bool.or_eq_true]
        exact .inl placed
      · rfl
    apply drops.bind
    rintro warning _ rfl
    exact rfl

/-- A whole generation stays within its stages, from its first operation to its last. -/
theorem generate_follows : Follows destination (.generate plan) (ends destination (.generate plan))
    .opening (generate destination plan) := by
  apply create_follows.bind
  rintro (error | staging) stage reached
  · exact reached.imp_right (Or.imp_right .inl)
  · obtain ⟨rfl, rfl⟩ := reached
    apply (fill_follows plan.items 0 []).bind
    rintro (error | ⟨⟩) stage reached
    · apply (drop_follows reached).bind
      rintro warning stage cleared
      exact .inr (cleared.imp_right .inr)
    · obtain rfl : stage = .filling plan.staged := reached
      exact place_follows

/-- Runs at their stages. -/
def staging (destination : Destination) (entries : Entries) :
    Concurrent.Staging (calls destination entries) Stage where
  first _ := .opening
  allows := allows destination
  next := next
  ends := ends destination
  conforms call := by
    cases call with
    | generate plan => exact generate_follows
    | make name entry =>
        refine ⟨rfl, fun reply => ?_⟩
        cases reply with
        | error impossible => cases impossible
        | ok reply => trivial
    | populate tree =>
        refine ⟨rfl, fun reply => ?_⟩
        cases reply with
        | error impossible => cases impossible
        | ok reply => trivial

end Renvor.Generate
