import Mathlib.Logic.Function.Basic
import Renvor.Kernel.Entropy

/-! # A directory that several processes work in

The operations are those of one open directory handle, and each is one step.
Removing a tree may stop before its end.
-/

namespace Renvor

/-- The paths below a directory, with the bytes of the files. -/
abbrev Tree := List (String × Option (List Byte))

/-- Writes one path, over what it held. -/
def Tree.put (tree : Tree) (path : String) (content : Option (List Byte)) : Tree :=
  tree.filter (fun item => item.1 ≠ path) ++ [(path, content)]

/-- What stands under a name: a directory with its files, a file, a link, or something else. -/
inductive Entry
  | directory (tree : Tree)
  | file (bytes : List Byte)
  | symlink (target : String)
  | other

/-- The entries of the directory, by name. -/
abbrev Entries := String → Option Entry

/-- The kinds of errors of the system that the generator tells apart. -/
inductive IoErrorKind
  | notFound | alreadyExists | permissionDenied | directoryNotEmpty | notADirectory | other
  deriving DecidableEq

/-- What the system says of an entry, without following a link. -/
inductive FileType
  | directory | file | symlink | other

/-- The type of an entry, as the system tells it. -/
def Entry.fileType : Entry → FileType
  | directory _ => .directory
  | file _ => .file
  | symlink _ => .symlink
  | other => .other

/-- The words for an error. -/
def IoErrorKind.text : IoErrorKind → String
  | .notFound => "not found"
  | .alreadyExists => "already exists"
  | .permissionDenied => "permission denied"
  | .directoryNotEmpty => "directory not empty"
  | .notADirectory => "not a directory"
  | .other => "other error"

/-- The words for a type. -/
def FileType.describe : FileType → String
  | .directory => "directory"
  | .file => "file"
  | .symlink => "symlink"
  | .other => "other"

/-- One step of a process. The last two are for processes that are no generators. -/
inductive FsOperation
  | createDir (name : String)
  | openDir (name : String)
  | write (name path : String) (content : Option (List Byte))
  | symlinkMetadata (name : String)
  | rename (source target : String)
  -- stuck after so many paths, with an error
  | removeDirAll (name : String) (stuck : Option (Nat × IoErrorKind))
  | make (name : String) (entry : Entry)
  | populate (name : String) (tree : Tree)

namespace FsOperation

/-- What an operation answers where it succeeds: the type of an entry, or nothing. -/
abbrev Answer : FsOperation → Type
  | symlinkMetadata _ => FileType
  | _ => Unit

/-- The answer of an operation, or the error it came to. -/
abbrev Reply (operation : FsOperation) : Type := Except IoErrorKind operation.Answer

/-- Create an entry, where nothing has its name yet. -/
def runCreate (name : String) (entry : Entry) (entries : Entries) :
    Except IoErrorKind Unit × Entries :=
  match entries name with
  | some _ => (.error .alreadyExists, entries)
  | none => (.ok (), Function.update entries name (some entry))

/-- Changes the tree of a directory. -/
def runChange (name : String) (change : Tree → Except IoErrorKind Unit × Option Entry)
    (entries : Entries) : Except IoErrorKind Unit × Entries :=
  match entries name with
  | some (.directory tree) =>
      let (reply, after) := change tree
      (reply, Function.update entries name after)
  | some _ => (.error .notADirectory, entries)
  | none => (.error .notFound, entries)

/-- A directory takes the place of an empty one or of nothing, and of nothing else. -/
def runRename (source target : String) (entries : Entries) :
    Except IoErrorKind Unit × Entries :=
  match entries source with
  | none => (.error .notFound, entries)
  | some moved =>
      if source = target then (.ok (), entries)
      else match moved, entries target with
        | .directory _, none | .directory _, some (.directory []) =>
            (.ok (), Function.update (Function.update entries source none) target (some moved))
        | .directory _, some (.directory (_ :: _)) => (.error .directoryNotEmpty, entries)
        | _, _ => (.error .notADirectory, entries)

/-- What each operation of the generator does to the entries of the directory it works in. -/
def run : (operation : FsOperation) → Entries → operation.Reply × Entries
  | createDir name, entries => runCreate name (.directory []) entries
  | openDir name, entries => match entries name with
      | some (.directory _) => (.ok (), entries)
      | some _ => (.error .notADirectory, entries)
      | none => (.error .notFound, entries)
  | write name path content, entries =>
      runChange name (fun tree => (.ok (), some (.directory (tree.put path content)))) entries
  | symlinkMetadata name, entries => match entries name with
      | some entry => (.ok entry.fileType, entries)
      | none => (.error .notFound, entries)
  | rename source target, entries => runRename source target entries
  | removeDirAll name none, entries => runChange name (fun _ => (.ok (), none)) entries
  | removeDirAll name (some (count, kind)), entries =>
      runChange name (fun tree => (.error kind, some (.directory (tree.drop count)))) entries
  | make name entry, entries => runCreate name entry entries
  | populate name tree, entries => match entries name with
      | some (.directory []) => (.ok (), Function.update entries name (some (.directory tree)))
      | _ => (.error .other, entries)

end FsOperation

end Renvor
