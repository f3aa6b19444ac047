import Mathlib.Data.List.Sort
import Mathlib.Data.List.Basic
import Mathlib.Data.Prod.Lex
import Renvor.Auth.Opaque
import Renvor.Foundation.Utf8

/-! # The digest of a project tree

Every regular file and every symlink in scope is one line, and what is hashed is the
lines in order. A link is not followed: its line carries the link's text. An entry of a
directory is opened by the name that is shown for it, so that an entry whose name is no
text is taken for another, or is not found.
-/

namespace Renvor.Digest

open Foundation

abbrev Name := List Byte

/-- Characters of one byte. -/
def ascii (text : String) : List Byte := text.toList.map fun character => Fin.ofNat 256 character.toNat

def slash : Byte := 0x2F

def lineFeed : Byte := 0x0A

def nul : Byte := 0

def treeScope : Nat := 1

def scopeFiles : List String :=
  ["Cargo.toml", "Cargo.lock", "rust-toolchain.toml", "build.rs", "renvor.toml",
    ".cargo/config.toml"]

def scopeDirectories : List String := ["src", "tests", "benches", "examples", "migrations"]

/-- What could not be done at a path. -/
inductive Refusal
  | examined | typed | link | opened | walked | read
  deriving DecidableEq

inductive DigestError
  | recordUnsupported (scope : Nat)
  | renderFailed (relative : List Byte) (refusal : Refusal)
  /-- Directories are opened below one another without an end. -/
  | endless
  deriving DecidableEq

/-- What stands at a path; a directory's entries are in the order they are listed in. -/
inductive Node
  | file (bytes : List Byte)
  | symlink (target : List Byte)
  | directory (listing : List (Name × Node))
  | other
  | refused (refusal : Refusal)

mutual

/-- The names of a directory's entries are names, each of one entry; a link's text is a
path. -/
def Node.wellFormed : Node → Bool
  | .symlink target => decide (nul ∉ target)
  | .directory listing => listed listing
  | _ => true

def listed : List (Name × Node) → Bool
  | [] => true
  | (name, node) :: rest =>
      decide (slash ∉ name ∧ nul ∉ name) && rest.all (fun other => other.1 ≠ name) &&
        node.wellFormed && listed rest

end

/-- What a directory tells of an entry before it is opened. -/
inductive Kind
  | file | symlink | directory | other | untyped

def Node.kind : Node → Kind
  | .file _ | .refused .read => .file
  | .symlink _ | .refused .link => .symlink
  | .directory _ | .refused .opened | .refused .walked => .directory
  | .other => .other
  | .refused .typed | .refused .examined => .untyped

/-- What a project shows at a path from its root; nothing where there is nothing. -/
structure Project where
  seen : String → Option Node
  wellFormed : ∀ relative node, seen relative = some node → node.wellFormed = true

/-- The project that shows these. -/
def Project.ofList (shown : List (String × Node)) (checked : shown.all fun item => item.2.wellFormed) :
    Project where
  seen relative := shown.lookup relative
  wellFormed := by
    intro relative node found
    obtain ⟨front, back, rfl, _⟩ := List.lookup_eq_some_iff.mp found
    exact List.all_eq_true.mp checked (relative, node) (by simp)

variable (hash : Sha256)

def hexText (digest : SecretDigest) : List Byte :=
  (digest.bytes.flatMap Byte.hex).map fun character => Fin.ofNat 256 character.toNat

def fileLine (relative bytes : List Byte) : List Byte :=
  relative ++ nul :: (hexText (hash bytes) ++ [lineFeed])

def symlinkLine (relative target : List Byte) : List Byte :=
  relative ++ nul :: (ascii "symlink:" ++ target ++ [lineFeed])

section Walk

/-! ## The walk -/

-- what is opened at a link's text, from the directory that the link is in
variable (follow : List (Name × Node) → List Byte → Option Node)

/-- What is opened by a name in a directory: an entry, or what a link leads to. -/
def opened (listing : List (Name × Node)) (name : Name) : Option Node :=
  match listing.lookup name with
  | some (.symlink target) => follow listing target
  | found => found

/-- An entry's lines: by its kind, what is read by the name that is shown for it. -/
def entryLines (descend : List Byte → List (Name × Node) → Except DigestError (List (List Byte)))
    (listing : List (Name × Node)) (relative shown : List Byte) (node : Node) :
    Except DigestError (List (List Byte)) :=
  match node.kind with
  | .symlink => match listing.lookup shown with
      | some (.symlink target) => .ok [symlinkLine relative (Utf8.lossy target)]
      | _ => .error (.renderFailed relative .link)
  | .directory => match opened follow listing shown with
      | some (.directory below) => descend relative below
      | some (.refused .walked) => .error (.renderFailed relative .walked)
      | _ => .error (.renderFailed relative .opened)
  | .file => match opened follow listing shown with
      | some (.file bytes) => .ok [fileLine hash relative bytes]
      | _ => .error (.renderFailed relative .read)
  | .other => .ok []
  | .untyped => .error (.renderFailed relative .typed)

/-- The lines of a directory's entries, one entry after another. -/
def entriesLines (descend : List Byte → List (Name × Node) → Except DigestError (List (List Byte)))
    (front : List Byte) (listing : List (Name × Node)) :
    List (Name × Node) → Except DigestError (List (List Byte))
  | [] => .ok []
  | (name, node) :: rest => do
      let shown := Utf8.lossy name
      let here ← entryLines hash follow descend listing (front ++ slash :: shown) shown node
      let others ← entriesLines descend front listing rest
      return here ++ others

/-- One level of the walk, and those below it. -/
def walk : Nat → List Byte → List (Name × Node) → Except DigestError (List (List Byte))
  | 0, _, _ => .error .endless
  | fuel + 1, front, listing => entriesLines hash follow (walk fuel) front listing listing

/-- One line for a regular file or a symlink, or the walk of the directory. -/
def Node.lines (fuel : Nat) (relative : List Byte) : Node → Except DigestError (List (List Byte))
  | .file bytes => .ok [fileLine hash relative bytes]
  | .symlink target => .ok [symlinkLine relative (Utf8.lossy target)]
  | .directory listing => walk hash follow fuel relative listing
  | .other => .ok []
  | .refused refusal => .error (.renderFailed relative refusal)

/-- What a path of the scope adds. -/
def entry (fuel : Nat) (root : Project) (relative : String) :
    Except DigestError (List (List Byte)) :=
  match root.seen relative with
  | none => .ok []
  | some node => node.lines hash follow fuel (ascii relative)

def scopePaths : List String := scopeFiles ++ scopeDirectories

/-- The lines of the paths, one path after another. -/
def gather (fuel : Nat) (root : Project) : List String → Except DigestError (List (List Byte))
  | [] => .ok []
  | relative :: rest => do
      let here ← entry hash follow fuel root relative
      let others ← gather fuel root rest
      return here ++ others

/-- What the digest is taken of, where the walks end within the fuel. -/
def treeText (fuel : Nat) (root : Project) (scope : Nat) : Except DigestError (List Byte) :=
  if scope ≠ treeScope then .error (.recordUnsupported scope)
  else do
    let lines ← gather hash follow fuel root scopePaths
    return (lines.insertionSort (· ≤ ·)).flatten

def treeUnder (fuel : Nat) (root : Project) (scope : Nat) : Except DigestError (List Byte) := do
  let text ← treeText hash follow fuel root scope
  return ascii "sha256:" ++ hexText (hash text)

end Walk

end Renvor.Digest
