import Mathlib.Algebra.Group.Nat.Defs
import Renvor.Foundation.FileTree
import Renvor.Storage.Port

/-! # The object store in a directory

One object is one file: a header with its content type, and then the bytes. The
segments of a key are the directories on the way to the file and its name.
-/

namespace Renvor

open Foundation

/-- The directory that a store is rooted in. It holds no links. -/
abbrev Directory := FileTree String (List UInt8)

/-- The directory the objects are under. -/
def objectsTree : String := "objects"

/-- The four bytes that every object file begins with. -/
def objectMagic : List UInt8 := [0x52, 0x56, 0x4f, 0x31]

/-- The bytes of a header in front of the content type. -/
def fixedHeaderBytes : Nat := objectMagic.length + 2

/-- No kind of these is one of a denial, of room or of time. -/
def classify : FileError → StorageError
  | .notFound | .notADirectory | .isADirectory | .alreadyExists => .unavailable

/-- What can be wrong with the bytes found in a file. -/
inductive Corruption
  | badMagic | truncated | contentTypeTooLong | contentTypeInvalid

/-- A corrupt file is told as a store that is not available, whatever is wrong with it. -/
def Corruption.corrupt : Corruption → StorageError
  | .badMagic | .truncated | .contentTypeTooLong | .contentTypeInvalid => .unavailable

/-- The path of a key's file, below the tree that it belongs to. -/
def relative (tree : String) (key : ObjectKey) : List String := tree :: key.segments

/-- Whether something is at a path. The directory has no links that could lead elsewhere. -/
def presentNotLink (dir : Directory) (path : List String) : Except StorageError Bool :=
  match dir.stat path with
  | .ok _ => .ok true
  | .error .notFound => .ok false
  | .error error => .error (classify error)

/-! ## An object's file -/

/-- The bytes of a text. -/
def utf8 (text : String) : List UInt8 := text.toByteArray.data.toList

/-- The text of some bytes, where they are one. -/
def fromUtf8 (bytes : List UInt8) : Option String := String.fromUTF8? ⟨bytes.toArray⟩

/-- The part of a header that every file has: its length is big-endian. -/
def fixedHeader (length : Nat) : List UInt8 :=
  objectMagic ++ [UInt8.ofNat (length / 256), UInt8.ofNat length]

/-- The header of an object file: the magic, the length of the content type, and its text. -/
def header (contentType : Option ContentType) : Except StorageError (List UInt8) :=
  let text := utf8 (contentType.elim "" ContentType.text)
  if 2 ^ 16 ≤ text.length then .error (.refused .contentTypeInvalid)
  else .ok (fixedHeader text.length ++ text)

/-- Writes the file beside its place and renames it there. The directories on the way
stay, whatever follows. -/
def writeAtomically (dir : Directory) (path : List String) (contentType : Option ContentType)
    (bytes : List UInt8) : Directory × Except StorageError Unit :=
  match path.getLast? with
  | none => (dir, .error (.refused .keyInvalid))
  -- a parent without names is the root, which is there
  | some name => match dir.createDirAll path.dropLast with
      | .error error => (dir, .error (classify error))
      | .ok made => match made.openDir path.dropLast with
          | .error error => (made, .error (classify error))
          | .ok () => match header contentType with
              | .error error => (made, .error error)
              | .ok header => match made.rename path.dropLast name (header ++ bytes) with
                  | .error error => (made, .error (classify error))
                  | .ok after => (after, .ok ())

/-- What an open file has left to read. A directory opens too. -/
abbrev OpenFile := FileNode (List UInt8)

/-- Read a number of bytes, or find that there are fewer. -/
def readFully (count : Nat) : OpenFile → Except StorageError (List UInt8 × OpenFile)
  | .directory => .error (classify .isADirectory)
  | .file rest =>
      if rest.length < count then .error Corruption.truncated.corrupt
      else .ok (rest.take count, .file (rest.drop count))

/-- Read what remains, and no more than a number of bytes. -/
def readToEnd (most : Nat) : OpenFile → Except StorageError (List UInt8)
  | .directory => .error (classify .isADirectory)
  | .file rest => .ok (rest.take most)

/-- Reads the content type that is announced. -/
def readContentType (length : Nat) (file : OpenFile) :
    Except StorageError (Option ContentType × OpenFile) :=
  if length = 0 then .ok (none, file)
  else do
    let (raw, file) ← readFully length file
    match fromUtf8 raw with
    | none => .error Corruption.contentTypeInvalid.corrupt
    | some text => match ContentType.new text with
        | .error _ => .error Corruption.contentTypeInvalid.corrupt
        | .ok contentType => .ok (some contentType, file)

/-- The header's length and content type, and the file after it. -/
def readHeader (file : OpenFile) : Except StorageError (Nat × Option ContentType × OpenFile) := do
  let (fixed, file) ← readFully fixedHeaderBytes file
  if fixed.take objectMagic.length ≠ objectMagic then .error Corruption.badMagic.corrupt
  else
    let length := (fixed.getD 4 0).toNat * 256 + (fixed.getD 5 0).toNat
    if maxContentTypeBytes < length then .error Corruption.contentTypeTooLong.corrupt
    else do
      let (contentType, file) ← readContentType length file
      .ok (fixedHeaderBytes + length, contentType, file)

/-- The length of the body, once the header is taken off the length of the file. -/
def bodyLength (fileLength headerLength : Nat) : Except StorageError Nat :=
  if fileLength < headerLength then .error Corruption.truncated.corrupt
  else .ok (fileLength - headerLength)

/-! ## The store -/

/-- A store on a file system: its bounds, and what the system answers for the length of a
directory. -/
structure FilesystemStore where
  bounds : StorageBounds
  -- what the platform says of a directory's length
  directoryLength : Nat

namespace FilesystemStore

variable (store : FilesystemStore)

/-- The length the system gives for what was opened. -/
def length : OpenFile → Nat
  | .directory => store.directoryLength
  | .file bytes => bytes.length

/-- Opens what is at a path, and measures it. -/
def openObject (dir : Directory) (path : List String) :
    Except StorageError (Option (OpenFile × Nat)) := do
  if !(← presentNotLink dir path) then .ok none
  else match dir.stat path with
    | .ok file => .ok (some (file, store.length file))
    | .error .notFound => .ok none
    | .error error => .error (classify error)

/-- Put an object in its file, through a temporary file that is renamed in its place. -/
def put (dir : Directory) (key : ObjectKey) (bytes : List UInt8)
    (contentType : Option ContentType) : Directory × Except StorageError Unit :=
  match store.bounds.check bytes.length with
  | .error error => (dir, .error error)
  | .ok () => match presentNotLink dir (relative objectsTree key) with
      | .error error => (dir, .error error)
      | .ok _ => writeAtomically dir (relative objectsTree key) contentType bytes

/-- Read an object from its file, where there is one, its body bounded by the ceiling. -/
def get (dir : Directory) (key : ObjectKey) : Except StorageError (Option Object) := do
  match ← store.openObject dir (relative objectsTree key) with
  | none => .ok none
  | some (file, length) =>
      let (header, contentType, file) ← readHeader file
      let size ← bodyLength length header
      store.bounds.check size
      let bytes ← readToEnd size file
      if bytes.length ≠ size then .error Corruption.truncated.corrupt else .ok (some ⟨bytes, contentType⟩)

/-- Read what is told of an object from the header of its file and the length. -/
def head (dir : Directory) (key : ObjectKey) : Except StorageError (Option ObjectMeta) := do
  match ← store.openObject dir (relative objectsTree key) with
  | none => .ok none
  | some (file, length) =>
      let (header, contentType, _) ← readHeader file
      let size ← bodyLength length header
      .ok (some ⟨size, contentType⟩)

/-- Delete the file of a key, and tell whether there was one. -/
def delete (dir : Directory) (key : ObjectKey) : Directory × Except StorageError Deleted :=
  match presentNotLink dir (relative objectsTree key) with
  | .error error => (dir, .error error)
  | .ok false => (dir, .ok .absent)
  | .ok true => match dir.removeFile (relative objectsTree key) with
      | .ok after => (after, .ok .deleted)
      | .error .notFound => (dir, .ok .absent)
      | .error error => (dir, .error (classify error))

/-- How the store answers each call of the port. -/
def answer (dir : Directory) : StoreCall → Directory × StoreAnswer
  | .put key bytes contentType => (store.put dir key bytes contentType).map id .put
  | .get key => (dir, .get (store.get dir key))
  | .head key => (dir, .head (store.head dir key))
  | .delete key => (delete dir key).map id .delete

/-- The store as a machine that answers one call after the other. -/
def machine : Machine Directory StoreCall StoreAnswer := ⟨store.answer⟩

end FilesystemStore

/-! ## What is written is read back -/

/-- The file of an object. -/
def Object.file (object : Object) : List UInt8 :=
  let text := utf8 (object.contentType.elim "" ContentType.text)
  fixedHeader text.length ++ text ++ object.bytes

/-- A text is read back from its bytes. -/
theorem fromUtf8_utf8 (text : String) : fromUtf8 (utf8 text) = some text := by
  unfold fromUtf8 utf8 String.fromUTF8?
  rw [dif_pos text.isValidUTF8]
  rfl

/-- The announced text of a content type is within the bound. -/
theorem length_announced (contentType : Option ContentType) :
    (utf8 (contentType.elim "" ContentType.text)).length ≤ maxContentTypeBytes := by
  cases contentType with
  | none => exact Nat.zero_le _
  | some contentType => exact contentType.size.2

/-- The header of every content type is written, since its length fits into two bytes. -/
theorem header_ok (contentType : Option ContentType) :
    header contentType = .ok (Object.file ⟨[], contentType⟩) := by
  have bound := length_announced contentType
  unfold header Object.file
  rw [if_neg (by unfold maxContentTypeBytes at bound; omega), List.append_nil]

/-- The file of an object is its header, and the bytes after it. -/
theorem file_append (contentType : Option ContentType) (bytes : List UInt8) :
    Object.file ⟨[], contentType⟩ ++ bytes = Object.file ⟨bytes, contentType⟩ := by
  simp only [Object.file, List.append_nil, List.append_assoc]

/-- As many bytes as are in front are read in full, and the others are left. -/
theorem readFully_append (front rest : List UInt8) :
    readFully front.length (.file (front ++ rest)) = .ok (front, .file rest) := by
  dsimp only [readFully]
  rw [if_neg (by simp), List.take_left, List.drop_left]

/-- A content type that was written is read back from the header. -/
theorem readContentType_append (contentType : Option ContentType) (rest : List UInt8) :
    readContentType (utf8 (contentType.elim "" ContentType.text)).length
        (.file (utf8 (contentType.elim "" ContentType.text) ++ rest)) =
      .ok (contentType, .file rest) := by
  cases contentType with
  | none => rfl
  | some contentType =>
      have filled : (utf8 contentType.text).length ≠ 0 := Nat.ne_of_gt contentType.size.1
      dsimp only [Option.elim_some, readContentType]
      rw [if_neg filled, readFully_append]
      dsimp only [bind, Except.bind]
      rw [fromUtf8_utf8]
      dsimp only
      rw [ContentType.new_text]

/-- A length that fits two bytes is read back. -/
theorem fixedHeader_length {length : Nat} (small : length < 2 ^ 16) :
    ((fixedHeader length).getD 4 0).toNat * 256 + ((fixedHeader length).getD 5 0).toNat = length := by
  show (UInt8.ofNat (length / 256)).toNat * 256 + (UInt8.ofNat length).toNat = length
  rw [UInt8.toNat_ofNat', UInt8.toNat_ofNat']
  omega

/-- **The header of an object's file tells its content type.** -/
theorem readHeader_file (object : Object) :
    ∃ header, readHeader (.file object.file) = .ok (header, object.contentType, .file object.bytes) ∧
      object.file.length = header + object.bytes.length := by
  obtain ⟨bytes, contentType⟩ := object
  have bound := length_announced contentType
  have split := readContentType_append contentType bytes
  unfold Object.file
  dsimp only
  generalize utf8 (contentType.elim "" ContentType.text) = text at bound split
  have small : text.length < 2 ^ 16 := by
    unfold maxContentTypeBytes at bound
    omega
  have fixed : readFully fixedHeaderBytes (.file (fixedHeader text.length ++ text ++ bytes)) =
      .ok (fixedHeader text.length, .file (text ++ bytes)) := by
    rw [List.append_assoc]
    exact readFully_append (fixedHeader text.length) (text ++ bytes)
  have magic : (fixedHeader text.length).take objectMagic.length = objectMagic := rfl
  refine ⟨fixedHeaderBytes + text.length, ?_, ?_⟩
  · unfold readHeader
    dsimp only [bind, Except.bind]
    rw [fixed]
    dsimp only
    rw [fixedHeader_length small, magic, if_neg fun differs => differs rfl,
      if_neg (Nat.not_lt.mpr bound), split]
  · rw [List.length_append, List.length_append]
    rfl

/-- What is left of the length of the whole file is the length of the body. -/
theorem bodyLength_add (header body : Nat) : bodyLength (header + body) header = .ok body := by
  unfold bodyLength
  rw [if_neg (by omega), Nat.add_sub_cancel_left]

/-! ## What a write leaves -/

variable {dir : Directory} {parent : List String} {name : String}

/-- A write goes through where no file is on the way and no directory in the place. -/
theorem writeAtomically_of_clear
    (clear : ∀ front content, front <+: parent → dir.node front ≠ some (.file content))
    (free : dir.node (parent ++ [name]) ≠ some .directory) (object : Object) :
    ∃ after, writeAtomically dir (parent ++ [name]) object.contentType object.bytes = (after, .ok ()) ∧
      ∀ path, after.node path = if path = parent ++ [name] then some (.file object.file)
        else if path <+: parent then some .directory else dir.node path := by
  obtain ⟨made, makes, node⟩ := FileTree.createDirAll_of_clear clear
  have inside : made.node parent = some .directory := by
    rw [node, if_pos (List.prefix_refl parent)]
  have kept : made.node (parent ++ [name]) ≠ some .directory := by
    rw [node, if_neg ?_]
    · exact free
    · intro starts
      have longer := starts.length_le
      rw [List.length_append, List.length_singleton] at longer
      omega
  obtain ⟨after, renames, leaves⟩ := FileTree.rename_of_free inside kept object.file
  refine ⟨after, ?_, ?_⟩
  · unfold writeAtomically
    rw [List.getLast?_concat]
    dsimp only
    rw [List.dropLast_concat, makes]
    dsimp only
    rw [FileTree.openDir_of_directory inside, header_ok]
    dsimp only
    rw [file_append, renames]
  · intro path
    rw [leaves]
    by_cases same : path = parent ++ [name]
    · rw [same, Function.update_self, if_pos rfl]
    · rw [Function.update_of_ne same, if_neg same, node]

/-- A directory is not replaced. -/
theorem writeAtomically_of_directory (taken : dir.node (parent ++ [name]) = some .directory)
    (contentType : Option ContentType) (bytes : List UInt8) :
    (writeAtomically dir (parent ++ [name]) contentType bytes).2 = .error .unavailable := by
  have inside := dir.within parent name (by rw [taken]; exact Option.some_ne_none _)
  obtain ⟨made, makes, node⟩ := FileTree.createDirAll_of_directory inside
  rw [← node] at inside taken
  unfold writeAtomically
  rw [List.getLast?_concat]
  dsimp only
  rw [List.dropLast_concat, makes]
  dsimp only
  rw [FileTree.openDir_of_directory inside, header_ok]
  dsimp only
  rw [FileTree.rename_of_taken inside taken]
  rfl

/-- The path of a key has a parent and a name. -/
theorem relative_split (tree : String) (key : ObjectKey) :
    ∃ parent name, relative tree key = parent ++ [name] :=
  ⟨_, _, (List.dropLast_concat_getLast (List.cons_ne_nil tree key.segments)).symm⟩

end Renvor
