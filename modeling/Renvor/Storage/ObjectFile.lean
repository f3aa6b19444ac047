import Renvor.Storage.Agreement

/-! # The file of an object

A file that is read as an object is the object's file, header and body whole
(`Renvor.FilesystemStore.readHeader_ok`), and a file that was written is read as the
object it was written for.
-/

namespace Renvor

open Foundation

theorem utf8_of_fromUtf8 {raw : List UInt8} {text : String} (read : fromUtf8 raw = some text) :
    utf8 text = raw := by
  unfold fromUtf8 String.fromUTF8? at read
  split at read
  · cases read
    rfl
  · cases read

theorem readFully_ok {count : Nat} {file after : OpenFile} {taken : List UInt8}
    (read : readFully count file = .ok (taken, after)) :
    ∃ rest, file = .file (taken ++ rest) ∧ after = .file rest ∧ taken.length = count := by
  cases file with
  | directory => cases read
  | file content =>
      dsimp only [readFully] at read
      split at read
      · cases read
      next long =>
        cases read
        refine ⟨content.drop count, by rw [List.take_append_drop], rfl, ?_⟩
        rw [List.length_take]
        omega

/-- A content type is read from its text. -/
theorem readContentType_ok {count : Nat} {file after : OpenFile} {contentType : Option ContentType}
    (read : readContentType count file = .ok (contentType, after)) :
    (utf8 (contentType.elim "" ContentType.text)).length = count ∧
      ((contentType = none ∧ after = file) ∨ ∃ rest, after = .file rest ∧
        file = .file (utf8 (contentType.elim "" ContentType.text) ++ rest)) := by
  unfold readContentType at read
  split at read
  next none_ =>
    cases read
    exact ⟨none_.symm, .inl ⟨rfl, rfl⟩⟩
  next some_ =>
    cases taken : readFully count file with
    | error failure =>
        rw [taken] at read
        cases read
    | ok parts =>
        obtain ⟨raw, rest⟩ := parts
        obtain ⟨body, whole, remains, wide⟩ := readFully_ok taken
        rw [taken] at read
        dsimp only [bind, Except.bind] at read
        split at read
        · cases read
        next text decoded =>
          split at read
          · cases read
          next found made =>
            cases read
            have same : found.text = text := by
              unfold ContentType.new at made
              split at made
              · cases made
                rfl
              · cases made
            have encoded : utf8 found.text = raw := by
              rw [same]
              exact utf8_of_fromUtf8 decoded
            dsimp only [Option.elim_some]
            rw [encoded]
            exact ⟨wide, .inr ⟨body, remains, whole⟩⟩

/-- The six bytes before a content type. -/
theorem fixedHeader_of_magic {fixed : List UInt8} (wide : fixed.length = fixedHeaderBytes)
    (magic : fixed.take objectMagic.length = objectMagic) :
    fixed = fixedHeader ((fixed.getD 4 0).toNat * 256 + (fixed.getD 5 0).toNat) := by
  match fixed, wide with
  | [first, second, third, fourth, high, low], _ =>
      have front : [first, second, third, fourth] = objectMagic := magic
      have upper : UInt8.ofNat ((high.toNat * 256 + low.toNat) / 256) = high := by
        have quotient : (high.toNat * 256 + low.toNat) / 256 = high.toNat := by
          have small := low.toNat_lt
          omega
        rw [quotient, UInt8.ofNat_toNat]
      have lower : UInt8.ofNat (high.toNat * 256 + low.toNat) = low := by
        apply UInt8.toNat_inj.mp
        rw [UInt8.toNat_ofNat']
        have small := low.toNat_lt
        omega
      change [first, second, third, fourth] ++ [high, low] = fixedHeader (high.toNat * 256 + low.toNat)
      rw [fixedHeader, front, upper, lower]

/-- **A header is complete where it is read**, and what is after it is the body. -/
theorem readHeader_ok {content : List UInt8} {header : Nat} {contentType : Option ContentType}
    {after : OpenFile} (read : readHeader (.file content) = .ok (header, contentType, after)) :
    ∃ body, after = .file body ∧ content = Object.file ⟨body, contentType⟩ ∧
      content.length = header + body.length := by
  unfold readHeader at read
  cases taken : readFully fixedHeaderBytes (.file content) with
  | error failure =>
      rw [taken] at read
      cases read
  | ok parts =>
      obtain ⟨fixed, rest⟩ := parts
      obtain ⟨others, whole, remains, wide⟩ := readFully_ok taken
      rw [taken] at read
      dsimp only [bind, Except.bind] at read
      split at read
      · cases read
      next magic =>
      split at read
      · cases read
      next bounded =>
      split at read
      · cases read
      next told typed =>
      obtain ⟨contentType, after⟩ := told
      cases read
      have shape := fixedHeader_of_magic wide (not_not.mp magic)
      have front : content = fixed ++ others := FileNode.file.inj whole
      obtain ⟨announced, parts⟩ := readContentType_ok typed
      have long : fixed.length = fixedHeaderBytes := wide
      rcases parts with ⟨rfl, rfl⟩ | ⟨body, rfl, split⟩
      · refine ⟨others, remains, ?_, ?_⟩
        · rw [front, Object.file]
          dsimp only [Option.elim_none] at announced ⊢
          rw [announced, ← shape]
          have empty : utf8 "" = [] := rfl
          rw [empty, List.append_nil]
        · have nothing : (utf8 "").length = 0 := rfl
          dsimp only [Option.elim_none] at announced
          rw [nothing] at announced
          rw [front, List.length_append, long, ← announced, Nat.add_zero]
      · have body_of : others = utf8 (contentType.elim "" ContentType.text) ++ body := by
          rw [remains] at split
          exact FileNode.file.inj split
        refine ⟨body, rfl, ?_, ?_⟩
        · rw [front, Object.file, body_of]
          dsimp only
          rw [announced, ← shape, List.append_assoc]
        · rw [front, body_of, List.length_append, List.length_append, announced, long]
          omega

namespace FilesystemStore

variable {store : FilesystemStore} {dir after : Directory} {key : ObjectKey}

/-- Where a write goes through, the object's file is in its place. -/
theorem writeAtomically_ok {path : List String} {contentType : Option ContentType}
    {bytes : List UInt8} (wrote : writeAtomically dir path contentType bytes = (after, .ok ())) :
    after.node path = some (.file (Object.file ⟨bytes, contentType⟩)) := by
  unfold writeAtomically at wrote
  split at wrote
  · exact absurd (Prod.ext_iff.mp wrote).2 (nofun)
  next name last =>
  split at wrote
  · exact absurd (Prod.ext_iff.mp wrote).2 (nofun)
  next made _ =>
  split at wrote
  · exact absurd (Prod.ext_iff.mp wrote).2 (nofun)
  next =>
  rw [header_ok] at wrote
  dsimp only at wrote
  rw [file_append] at wrote
  split at wrote
  · exact absurd (Prod.ext_iff.mp wrote).2 (nofun)
  next renamed moved =>
  have same : renamed = after := (Prod.ext_iff.mp wrote).1
  rw [← same]
  have split_path : path.dropLast ++ [name] = path := List.dropLast_append_getLast? name last
  unfold FileTree.rename at moved
  split at moved
  · split at moved
    · cases moved
    · cases moved
      dsimp only
      rw [split_path, Function.update_self]
  · cases moved

theorem put_ok {bytes : List UInt8} {contentType : Option ContentType}
    (done : store.put dir key bytes contentType = (after, .ok ())) :
    bytes.length ≤ store.bounds.maxObjectBytes ∧
      after.node (relative objectsTree key) = some (.file (Object.file ⟨bytes, contentType⟩)) := by
  unfold put at done
  split at done
  · exact absurd (Prod.ext_iff.mp done).2 (nofun)
  next within =>
  split at done
  · exact absurd (Prod.ext_iff.mp done).2 (nofun)
  next =>
  refine ⟨?_, writeAtomically_ok done⟩
  unfold StorageBounds.check at within
  split at within
  · cases within
  next small => exact Nat.not_lt.mp small

theorem get_file_cases {content : List UInt8}
    (held : dir.node (relative objectsTree key) = some (.file content)) :
    (∃ failure, store.get dir key = .error failure) ∨
      ∃ object : Object, content = object.file ∧ store.get dir key = .ok (some object) := by
  cases told : store.get dir key with
  | error failure => exact .inl ⟨failure, rfl⟩
  | ok found =>
      refine .inr ?_
      unfold get at told
      rw [openObject_of_node held] at told
      dsimp only [bind, Except.bind] at told
      split at told
      · cases told
      next read header_read =>
      obtain ⟨header, contentType, file⟩ := read
      obtain ⟨body, rfl, whole, size⟩ := readHeader_ok header_read
      have counted : bodyLength (store.length (.file content)) header = .ok body.length := by
        dsimp only [length]
        rw [size]
        exact bodyLength_add header body.length
      dsimp only at told
      rw [counted] at told
      dsimp only at told
      split at told
      · cases told
      dsimp only [readToEnd] at told
      rw [List.take_length, if_neg fun differs => differs rfl] at told
      cases told
      exact ⟨⟨body, contentType⟩, whole, rfl⟩

theorem head_file_cases {content : List UInt8}
    (held : dir.node (relative objectsTree key) = some (.file content)) :
    (∃ failure, store.head dir key = .error failure) ∨
      ∃ object : Object, content = object.file ∧ store.head dir key = .ok (some object.meta) := by
  cases told : store.head dir key with
  | error failure => exact .inl ⟨failure, rfl⟩
  | ok found =>
      refine .inr ?_
      unfold head at told
      rw [openObject_of_node held] at told
      dsimp only [bind, Except.bind] at told
      split at told
      · cases told
      next read header_read =>
      obtain ⟨header, contentType, file⟩ := read
      obtain ⟨body, rfl, whole, size⟩ := readHeader_ok header_read
      have counted : bodyLength (store.length (.file content)) header = .ok body.length := by
        dsimp only [length]
        rw [size]
        exact bodyLength_add header body.length
      dsimp only at told
      rw [counted] at told
      cases told
      exact ⟨⟨body, contentType⟩, whole, rfl⟩

/-- **What was put is read back, and what is at an object's path is read whole or not at all.**
Whatever bytes stand there, a read fails or gives the one object whose file they are, and what is
told without the body agrees. -/
theorem object_file_round_trip (store : FilesystemStore) (key : ObjectKey) :
    (∀ dir after bytes contentType, store.put dir key bytes contentType = (after, .ok ()) →
      store.get after key = .ok (some ⟨bytes, contentType⟩) ∧
        store.head after key = .ok (some ⟨bytes.length, contentType⟩)) ∧
    ∀ dir content, dir.node (relative objectsTree key) = some (.file content) →
      ((∃ failure, store.get dir key = .error failure) ∨
        ∃ object : Object, content = object.file ∧ store.get dir key = .ok (some object)) ∧
      ((∃ failure, store.head dir key = .error failure) ∨
        ∃ object : Object, content = object.file ∧ store.head dir key = .ok (some object.meta)) := by
  constructor
  · intro dir after bytes contentType done
    obtain ⟨small, held⟩ := put_ok done
    exact ⟨get_of_file held small, head_of_file held⟩
  · intro dir content held
    exact ⟨get_file_cases held, head_file_cases held⟩

/-- Two bytes with no content type. -/
theorem object_file_two_bytes :
    (⟨.default, 0⟩ : FilesystemStore).get
        ((⟨.default, 0⟩ : FilesystemStore).put FileTree.empty ⟨"a", by decide⟩ [0x52, 0x56] none).1
        ⟨"a", by decide⟩ = .ok (some ⟨[0x52, 0x56], none⟩) :=
  ((object_file_round_trip ⟨.default, 0⟩ ⟨"a", by decide⟩).1 FileTree.empty _ [0x52, 0x56] none
    (Prod.ext rfl (by decide +kernel))).1

end FilesystemStore

end Renvor
