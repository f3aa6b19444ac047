import Mathlib.Data.List.Infix
import Mathlib.Logic.Function.Basic

/-! # Trees of files and directories

A path is the names from the root. What a file holds nothing is below, so that a
directory stands above everything there is (`Foundation.FileTree.above`). The
operations are those of one process on a disk that does not fail.
-/

namespace Foundation

/-- What a path leads to. -/
inductive FileNode (Content : Type*)
  | file (content : Content)
  | directory
  deriving DecidableEq

instance {Content : Type*} : (found : Option (FileNode Content)) → Decidable (found = some .directory)
  | none => .isFalse nofun
  | some .directory => .isTrue rfl
  | some (.file _) => .isFalse nofun

inductive FileError
  | notFound | notADirectory | isADirectory | alreadyExists
  deriving DecidableEq

/-- A tree below a root. Whatever is at a path is in a directory. -/
structure FileTree (Name Content : Type*) where
  node : List Name → Option (FileNode Content)
  root : node [] = some .directory
  within : ∀ path name, node (path ++ [name]) ≠ none → node path = some .directory

namespace FileTree

/-- A root with nothing in it. -/
def empty {Name Content : Type*} : FileTree Name Content where
  node
    | [] => some .directory
    | _ :: _ => none
  root := rfl
  within := by
    intro path name held
    cases path with
    | nil => rfl
    | cons first rest => exact (held rfl).elim

variable {Name Content : Type*} (tree : FileTree Name Content) {path front other : List Name}
  {content : Content}

/-- There is a file on the way. -/
def blocked (path : List Name) : Bool :=
  path.inits.any fun front => match tree.node front with
    | some (.file _) => true
    | _ => false

/-- What a path leads to, the last name not followed. -/
def stat (path : List Name) : Except FileError (FileNode Content) :=
  match tree.node path with
  | some node => .ok node
  | none => .error (if tree.blocked path then .notADirectory else .notFound)

/-- The directory of a path can be opened. -/
def openDir (path : List Name) : Except FileError Unit :=
  match tree.stat path with
  | .ok .directory => .ok ()
  | .ok (.file _) => .error .notADirectory
  | .error error => .error error

variable {tree}

/-- **A directory stands above everything there is.** -/
theorem above (held : tree.node path ≠ none) (starts : front <+: path) (proper : front ≠ path) :
    tree.node front = some .directory := by
  obtain ⟨rest, rfl⟩ := starts
  induction rest using List.reverseRecOn with
  | nil => exact (proper (List.append_nil front).symm).elim
  | append_singleton rest name ih =>
      rw [← List.append_assoc] at held
      have inside := tree.within (front ++ rest) name held
      by_cases same : front = front ++ rest
      · rw [same]
        exact inside
      · refine ih ?_ same
        rw [inside]
        exact Option.some_ne_none _

/-- Below a file there is nothing. -/
theorem below_file (file : tree.node front = some (.file content)) (starts : front <+: path)
    (proper : front ≠ path) : tree.node path = none := by
  by_contra held
  have directory := above held starts proper
  rw [file] at directory
  cases directory

theorem blocked_iff : tree.blocked path = true ↔
    ∃ front content, front <+: path ∧ tree.node front = some (.file content) := by
  unfold blocked
  rw [List.any_eq_true]
  constructor
  · rintro ⟨front, member, file⟩
    split at file
    next content held => exact ⟨front, content, (List.mem_inits _ _).mp member, held⟩
    next => cases file
  · rintro ⟨front, content, starts, held⟩
    exact ⟨front, (List.mem_inits _ _).mpr starts, by rw [held]⟩

theorem stat_of_node {node : FileNode Content} (held : tree.node path = some node) :
    tree.stat path = .ok node := by
  unfold stat
  rw [held]

theorem openDir_of_directory (held : tree.node path = some .directory) :
    tree.openDir path = .ok () := by
  unfold openDir
  rw [stat_of_node held]

theorem stat_of_blocked (file : tree.node front = some (.file content)) (starts : front <+: path)
    (proper : front ≠ path) : tree.stat path = .error .notADirectory := by
  unfold stat
  rw [below_file file starts proper]
  exact congrArg _ (if_pos (blocked_iff.mpr ⟨front, content, starts, file⟩))

theorem stat_of_free (free : tree.node path = none)
    (clear : ∀ front content, front <+: path → tree.node front ≠ some (.file content)) :
    tree.stat path = .error .notFound := by
  unfold stat
  rw [free]
  refine congrArg _ (if_neg fun blocked => ?_)
  obtain ⟨front, content, starts, file⟩ := blocked_iff.mp blocked
  exact clear front content starts file

variable (tree)

/-! ## What changes a tree -/

section Operations

variable [DecidableEq Name]

/-- Makes the directories of a path that are not there. -/
def createDirAll (path : List Name) : Except FileError (FileTree Name Content) :=
  if tree.blocked path then
    .error (if (tree.node path).isSome then .alreadyExists else .notADirectory)
  else .ok {
    node := fun other => if other <+: path then some .directory else tree.node other
    root := if_pos List.nil_prefix
    within := by
      intro other name held
      split at held
      next starts => exact if_pos ((List.prefix_append other [name]).trans starts)
      next =>
        split
        next => rfl
        next => exact tree.within other name held }

/-- Gives a name to a written file, in a directory that is open. -/
def rename (path : List Name) (name : Name) (content : Content) :
    Except FileError (FileTree Name Content) :=
  if inside : tree.node path = some .directory then
    if taken : tree.node (path ++ [name]) = some .directory then .error .isADirectory
    else .ok {
      node := Function.update tree.node (path ++ [name]) (some (.file content))
      root := by
        rw [Function.update_of_ne (by simp)]
        exact tree.root
      within := by
        intro other next held
        by_cases same : other ++ [next] = path ++ [name]
        · obtain ⟨rfl, _⟩ := List.append_inj' same rfl
          rw [Function.update_of_ne (by simp)]
          exact inside
        · rw [Function.update_of_ne same] at held
          have above := tree.within other next held
          rw [Function.update_of_ne ?_]
          · exact above
          · rintro rfl
            exact taken above }
  else .error .notFound

/-- Takes a file away. -/
def removeFile (path : List Name) : Except FileError (FileTree Name Content) :=
  match found : tree.node path with
  | none => .error (if tree.blocked path then .notADirectory else .notFound)
  | some .directory => .error .isADirectory
  | some (.file _) => .ok {
      node := Function.update tree.node path none
      root := by
        rw [Function.update_of_ne ?_]
        · exact tree.root
        · rintro rfl
          rw [tree.root] at found
          cases found
      within := by
        intro other name held
        have kept : tree.node (other ++ [name]) ≠ none := by
          by_cases same : other ++ [name] = path
          · rw [same, found]
            exact Option.some_ne_none _
          · rwa [Function.update_of_ne same] at held
        have above := tree.within other name kept
        rw [Function.update_of_ne ?_]
        · exact above
        · rintro rfl
          rw [found] at above
          cases above }

variable {tree}

/-- The directories of a path can be made where there is no file on the way. -/
theorem createDirAll_of_clear
    (clear : ∀ front content, front <+: path → tree.node front ≠ some (.file content)) :
    ∃ made, tree.createDirAll path = .ok made ∧
      ∀ other, made.node other = if other <+: path then some .directory else tree.node other := by
  refine ⟨_, if_neg fun blocked => ?_, fun _ => rfl⟩
  obtain ⟨front, content, starts, file⟩ := blocked_iff.mp blocked
  exact clear front content starts file

/-- A directory that is there is made no other. -/
theorem createDirAll_of_directory (held : tree.node path = some .directory) :
    ∃ made, tree.createDirAll path = .ok made ∧ made.node = tree.node := by
  have clear : ∀ front content, front <+: path → tree.node front ≠ some (.file content) := by
    intro front content starts file
    by_cases same : front = path
    · rw [same, held] at file
      cases file
    · rw [below_file file starts same] at held
      cases held
  obtain ⟨made, makes, node⟩ := createDirAll_of_clear clear
  refine ⟨made, makes, funext fun other => ?_⟩
  rw [node]
  split
  next starts =>
    by_cases same : other = path
    · rw [same, held]
    · rw [above _ starts same]
      rw [held]
      exact Option.some_ne_none _
  next => rfl

theorem rename_of_free {name : Name} (inside : tree.node path = some .directory)
    (free : tree.node (path ++ [name]) ≠ some .directory) (content : Content) :
    ∃ after, tree.rename path name content = .ok after ∧
      after.node = Function.update tree.node (path ++ [name]) (some (.file content)) := by
  unfold rename
  rw [dif_pos inside, dif_neg free]
  exact ⟨_, rfl, rfl⟩

theorem rename_of_taken {name : Name} (inside : tree.node path = some .directory)
    (taken : tree.node (path ++ [name]) = some .directory) (content : Content) :
    tree.rename path name content = .error .isADirectory := by
  unfold rename
  rw [dif_pos inside, dif_pos taken]

theorem removeFile_of_file (held : tree.node path = some (.file content)) :
    ∃ after, tree.removeFile path = .ok after ∧
      after.node = Function.update tree.node path none := by
  unfold removeFile
  split
  next free => cases held.symm.trans free
  next taken => cases held.symm.trans taken
  next => exact ⟨_, rfl, rfl⟩

theorem removeFile_of_directory (held : tree.node path = some .directory) :
    tree.removeFile path = .error .isADirectory := by
  unfold removeFile
  split
  next free => cases held.symm.trans free
  next => rfl
  next file => cases held.symm.trans file

end Operations

end FileTree

end Foundation
