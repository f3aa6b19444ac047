import Renvor.Storage.Filesystem
import Renvor.Storage.Memory

/-! # What the store in a directory answers

A file cannot be a directory. The store answers as a map does as long as no key
leads through another one that holds an object, and none is where a directory was
made for another (`Renvor.filesystem_agrees_iff`).
-/

namespace Renvor

open Foundation

/-- The key of an object that is put. -/
def StoreCall.placed (bounds : StorageBounds) (call : StoreCall) : Option ObjectKey :=
  match call with
  | .put key _ _ => if call.oversized bounds then none else some key
  | _ => none

/-- No object that was ever put is beneath the key of a call, and the key is beneath no
object there is. A call that a bound refuses reaches no file. -/
def StoreCall.Clear (bounds : StorageBounds) (past : List StoreCall) (objects : Catalogue)
    (call : StoreCall) : Prop :=
  call.oversized bounds = false →
    (∀ other ∈ past.filterMap (StoreCall.placed bounds), ¬ other.Beneath call.key) ∧
      ∀ other, call.key.Beneath other → objects other = none

/-- Every call is clear in the sequence. -/
def Unobstructed (bounds : StorageBounds) (calls : List StoreCall) : Prop :=
  ∀ earlier call later, calls = earlier ++ call :: later →
    call.Clear bounds earlier ((Catalogue.machine bounds).run Catalogue.empty earlier)

/-- What is answered to a call that failed. -/
def StoreAnswer.failed : StoreAnswer → Bool
  | put (.error _) | get (.error _) | head (.error _) | delete (.error _) => true
  | _ => false

/-- A map fails no call within the bounds. -/
theorem Catalogue.answer_not_failed {bounds : StorageBounds} {call : StoreCall}
    (within : call.oversized bounds = false) (objects : Catalogue) :
    (answer bounds objects call).2.failed = false := by
  cases call with
  | put key bytes contentType =>
      dsimp only [answer, StorageBounds.check]
      rw [if_neg (of_decide_eq_false within)]
      rfl
  | get key => rfl
  | head key => rfl
  | delete key =>
      dsimp only [answer]
      cases objects key with
      | none => rfl
      | some object => rfl

namespace FilesystemStore

variable {bounds : StorageBounds} {dir : Directory} {objects : Catalogue} {put : List ObjectKey}
  {key other : ObjectKey}

/-- The files under the tree of a store are its objects, and the directories are those
that were made on the way to one. -/
structure Holds (bounds : StorageBounds) (dir : Directory) (objects : Catalogue)
    (put : List ObjectKey) : Prop where
  file : ∀ path content, dir.node (objectsTree :: path) = some (.file content) ↔
    ∃ key object, key.segments = path ∧ objects key = some object ∧ object.file = content
  directory : ∀ path, path ≠ [] → (dir.node (objectsTree :: path) = some .directory ↔
    ∃ key ∈ put, path <+: key.segments ∧ path ≠ key.segments)
  bounded : ∀ key object, objects key = some object → object.bytes.length ≤ bounds.maxObjectBytes

/-- The way to an object: the root, the tree, and directories named by its segments. -/
theorem way_cases {front : List String} (starts : front <+: relative objectsTree key) :
    front = [] ∨ ∃ path, front = objectsTree :: path ∧ path <+: key.segments := by
  cases front with
  | nil => exact .inl rfl
  | cons first path =>
      obtain ⟨rfl, inside⟩ := List.cons_prefix_cons.mp starts
      exact .inr ⟨path, rfl, inside⟩

theorem Holds.node_of_held (holds : Holds bounds dir objects put) {object : Object}
    (held : objects key = some object) :
    dir.node (relative objectsTree key) = some (.file object.file) :=
  (holds.file key.segments object.file).mpr ⟨key, object, rfl, held, rfl⟩

/-- Where a key is beneath no object, the only file on its way is its own. -/
theorem Holds.way_clear (holds : Holds bounds dir objects put)
    (above : ∀ other, key.Beneath other → objects other = none) {front : List String}
    {content : List UInt8} (starts : front <+: relative objectsTree key)
    (file : dir.node front = some (.file content)) :
    front = relative objectsTree key ∧ ∃ object, objects key = some object := by
  obtain rfl | ⟨path, rfl, inside⟩ := way_cases starts
  · rw [dir.root] at file
    cases file
  · obtain ⟨other, object, rfl, held, _⟩ := (holds.file path content).mp file
    by_cases same : other = key
    · rw [same] at held ⊢
      exact ⟨rfl, object, held⟩
    · rw [above other ⟨inside, same⟩] at held
      cases held

theorem Holds.not_directory (holds : Holds bounds dir objects put)
    (beneath : ∀ other ∈ put, ¬ other.Beneath key) :
    dir.node (relative objectsTree key) ≠ some .directory := by
  intro directory
  obtain ⟨other, member, starts, proper⟩ :=
    (holds.directory key.segments key.segments_ne_nil).mp directory
  exact beneath other member ⟨starts, fun same => proper (congrArg _ same)⟩

/-- A key that is clear and holds nothing leads nowhere. -/
theorem Holds.stat_of_absent (holds : Holds bounds dir objects put)
    (beneath : ∀ other ∈ put, ¬ other.Beneath key)
    (above : ∀ other, key.Beneath other → objects other = none) (absent : objects key = none) :
    dir.stat (relative objectsTree key) = .error .notFound := by
  have clear : ∀ front content, front <+: relative objectsTree key →
      dir.node front ≠ some (.file content) := by
    intro front content starts file
    obtain ⟨_, object, held⟩ := holds.way_clear above starts file
    rw [absent] at held
    cases held
  refine FileTree.stat_of_free ?_ clear
  cases found : dir.node (relative objectsTree key) with
  | none => rfl
  | some node =>
      cases node with
      | directory => exact (holds.not_directory beneath found).elim
      | file content => exact (clear _ content (List.prefix_refl _) found).elim

/-- A directory stays where one was made. -/
theorem Holds.node_of_beneath (holds : Holds bounds dir objects put) (member : other ∈ put)
    (beneath : other.Beneath key) : dir.node (relative objectsTree key) = some .directory :=
  (holds.directory key.segments key.segments_ne_nil).mpr ⟨other, member, beneath.1,
    fun same => beneath.2 (ObjectKey.segments_injective same)⟩

/-- Beneath an object nothing can be looked up. -/
theorem Holds.stat_of_above (holds : Holds bounds dir objects put) (beneath : key.Beneath other)
    {object : Object} (held : objects other = some object) :
    dir.stat (relative objectsTree key) = .error .notADirectory := by
  refine FileTree.stat_of_blocked (holds.node_of_held held) ?_ ?_
  · exact List.cons_prefix_cons.mpr ⟨rfl, beneath.1⟩
  · intro same
    exact beneath.2 (ObjectKey.segments_injective (List.cons.inj same).2)

/-! ## What a change keeps -/

/-- A written file is the object of its key, and its way is made of directories. -/
theorem Holds.write (holds : Holds bounds dir objects put)
    (beneath : ∀ other ∈ put, ¬ other.Beneath key)
    (above : ∀ other, key.Beneath other → objects other = none) {object : Object}
    (small : object.bytes.length ≤ bounds.maxObjectBytes) {parent : List String} {name : String}
    (split : relative objectsTree key = parent ++ [name]) {after : Directory}
    (leaves : ∀ path, after.node path = if path = parent ++ [name] then some (.file object.file)
      else if path <+: parent then some .directory else dir.node path) :
    Holds bounds after (Function.update objects key (some object)) (put ++ [key]) := by
  have place : ∀ path, objectsTree :: path = parent ++ [name] ↔ path = key.segments := by
    intro path
    rw [← split]
    exact List.cons_inj_right objectsTree
  have way : ∀ path, objectsTree :: path <+: parent ↔ path <+: key.segments ∧ path ≠ key.segments := by
    intro path
    have whole : objectsTree :: path <+: parent ++ [name] ↔ path <+: key.segments := by
      rw [← split]
      exact List.prefix_cons_inj objectsTree
    rw [← whole, List.prefix_concat_iff, Ne, ← place]
    constructor
    · intro inside
      refine ⟨.inr inside, fun same => ?_⟩
      have longer := inside.length_le
      rw [same, List.length_append, List.length_singleton] at longer
      omega
    · rintro ⟨same | inside, proper⟩
      · exact (proper same).elim
      · exact inside
  constructor
  · intro path content
    rw [leaves]
    by_cases own : path = key.segments
    · rw [if_pos ((place path).mpr own)]
      constructor
      · rintro ⟨⟩
        exact ⟨key, object, own.symm, Function.update_self .., rfl⟩
      · rintro ⟨other, another, segments, held, rfl⟩
        obtain rfl := ObjectKey.segments_injective (segments.trans own)
        rw [Function.update_self] at held
        cases held
        rfl
    · rw [if_neg ((place path).not.mpr own)]
      have others : (∃ other another, other.segments = path ∧
          Function.update objects key (some object) other = some another ∧ another.file = content) ↔
          ∃ other another, other.segments = path ∧ objects other = some another ∧
            another.file = content := by
        refine exists_congr fun other => exists_congr fun another => and_congr_right fun same => ?_
        rw [Function.update_of_ne]
        rintro rfl
        exact own same.symm
      rw [others]
      split
      next inside =>
        refine iff_of_false nofun ?_
        rintro ⟨other, another, rfl, held, _⟩
        rw [above other ⟨((way _).mp inside).1, fun same => own (congrArg _ same)⟩] at held
        cases held
      next => exact holds.file path content
  · intro path filled
    rw [leaves]
    have members : (∃ other ∈ put ++ [key], path <+: other.segments ∧ path ≠ other.segments) ↔
        (∃ other ∈ put, path <+: other.segments ∧ path ≠ other.segments) ∨
          objectsTree :: path <+: parent := by
      rw [way]
      simp only [List.mem_append, List.mem_singleton, or_and_right, exists_or, exists_eq_left]
    rw [members]
    by_cases own : path = key.segments
    · rw [if_pos ((place path).mpr own)]
      refine iff_of_false nofun ?_
      rintro (⟨other, member, starts, proper⟩ | inside)
      · rw [own] at starts proper
        exact beneath other member ⟨starts, fun same => proper (congrArg _ same)⟩
      · exact ((way path).mp inside).2 own
    · rw [if_neg ((place path).not.mpr own)]
      split
      next inside => exact iff_of_true rfl (.inr inside)
      next outside =>
        rw [holds.directory path filled]
        exact (or_iff_left outside).symm
  · intro other another held
    by_cases same : other = key
    · subst same
      rw [Function.update_self] at held
      cases held
      exact small
    · rw [Function.update_of_ne same] at held
      exact holds.bounded other another held

/-- A removed file is no object, and its way stays. -/
theorem Holds.remove (holds : Holds bounds dir objects put)
    (beneath : ∀ other ∈ put, ¬ other.Beneath key) {after : Directory}
    (leaves : after.node = Function.update dir.node (relative objectsTree key) none) :
    Holds bounds after (Function.update objects key none) put := by
  have elsewhere : ∀ path, path ≠ key.segments →
      after.node (objectsTree :: path) = dir.node (objectsTree :: path) := by
    intro path other
    rw [leaves, Function.update_of_ne]
    exact fun same => other (List.cons.inj same).2
  have gone : after.node (objectsTree :: key.segments) = none := by
    rw [leaves]
    exact Function.update_self ..
  constructor
  · intro path content
    by_cases own : path = key.segments
    · rw [own, gone]
      refine iff_of_false nofun ?_
      rintro ⟨other, another, segments, held, _⟩
      rw [ObjectKey.segments_injective segments, Function.update_self] at held
      cases held
    · rw [elsewhere path own, holds.file]
      refine exists_congr fun other => exists_congr fun another => and_congr_right fun same => ?_
      rw [Function.update_of_ne]
      rintro rfl
      exact own same.symm
  · intro path filled
    by_cases own : path = key.segments
    · rw [own, gone]
      refine iff_of_false nofun ?_
      rintro ⟨other, member, starts, proper⟩
      exact beneath other member ⟨starts, fun same => proper (congrArg _ same)⟩
    · rw [elsewhere path own, holds.directory path filled]
  · intro other another held
    by_cases same : other = key
    · rw [same, Function.update_self] at held
      cases held
    · rw [Function.update_of_ne same] at held
      exact holds.bounded other another held

/-! ## One call -/

section Call

variable {store : FilesystemStore}

theorem presentNotLink_of_node {node : OpenFile} {path : List String}
    (held : dir.node path = some node) : presentNotLink dir path = .ok true := by
  unfold presentNotLink
  rw [FileTree.stat_of_node held]

theorem presentNotLink_of_absent {path : List String} (absent : dir.stat path = .error .notFound) :
    presentNotLink dir path = .ok false := by
  unfold presentNotLink
  rw [absent]

theorem presentNotLink_of_blocked {path : List String}
    (blocked : dir.stat path = .error .notADirectory) :
    presentNotLink dir path = .error .unavailable := by
  unfold presentNotLink
  rw [blocked]
  rfl

theorem openObject_of_node {node : OpenFile} {path : List String}
    (held : dir.node path = some node) :
    store.openObject dir path = .ok (some (node, store.length node)) := by
  unfold openObject
  rw [presentNotLink_of_node held, FileTree.stat_of_node held]
  rfl

theorem openObject_of_absent {path : List String} (absent : dir.stat path = .error .notFound) :
    store.openObject dir path = .ok none := by
  unfold openObject
  rw [presentNotLink_of_absent absent]
  rfl

theorem openObject_of_blocked {path : List String}
    (blocked : dir.stat path = .error .notADirectory) :
    store.openObject dir path = .error .unavailable := by
  unfold openObject
  rw [presentNotLink_of_blocked blocked]
  rfl

/-- The file of an object is read back whole. -/
theorem get_of_file {object : Object}
    (held : dir.node (relative objectsTree key) = some (.file object.file))
    (small : object.bytes.length ≤ store.bounds.maxObjectBytes) :
    store.get dir key = .ok (some object) := by
  obtain ⟨header, reads, whole⟩ := readHeader_file object
  have body : bodyLength (store.length (.file object.file)) header = .ok object.bytes.length := by
    dsimp only [length]
    rw [whole]
    exact bodyLength_add header object.bytes.length
  have checked : store.bounds.check object.bytes.length = .ok () := if_neg (Nat.not_lt.mpr small)
  unfold get
  rw [openObject_of_node held]
  dsimp only [bind, Except.bind]
  rw [reads]
  dsimp only
  rw [body]
  dsimp only
  rw [checked]
  dsimp only [readToEnd]
  rw [List.take_length, if_neg fun differs => differs rfl]

theorem head_of_file {object : Object}
    (held : dir.node (relative objectsTree key) = some (.file object.file)) :
    store.head dir key = .ok (some object.meta) := by
  obtain ⟨header, reads, whole⟩ := readHeader_file object
  have body : bodyLength (store.length (.file object.file)) header = .ok object.bytes.length := by
    dsimp only [length]
    rw [whole]
    exact bodyLength_add header object.bytes.length
  unfold head
  rw [openObject_of_node held]
  dsimp only [bind, Except.bind]
  rw [reads]
  dsimp only
  rw [body]
  rfl

/-- What is a directory or beneath a file fails every call that reaches it. -/
theorem answer_failed {call : StoreCall} (within : call.oversized store.bounds = false)
    (obstructed : dir.node (relative objectsTree call.key) = some .directory ∨
      dir.stat (relative objectsTree call.key) = .error .notADirectory) :
    (store.answer dir call).2.failed = true := by
  cases call with
  | put key bytes contentType =>
      have checked : store.bounds.check bytes.length = .ok () := if_neg (of_decide_eq_false within)
      dsimp only [StoreCall.key] at obstructed
      dsimp only [answer, FilesystemStore.put]
      rw [checked]
      dsimp only
      cases obstructed with
      | inl directory =>
          obtain ⟨parent, name, split⟩ := relative_split objectsTree key
          have fails := writeAtomically_of_directory (split ▸ directory) contentType bytes
          rw [presentNotLink_of_node directory]
          dsimp only [Prod.map]
          rw [split, fails]
          rfl
      | inr blocked =>
          rw [presentNotLink_of_blocked blocked]
          rfl
  | get key =>
      dsimp only [StoreCall.key] at obstructed
      dsimp only [answer, get]
      cases obstructed with
      | inl directory =>
          rw [openObject_of_node directory]
          rfl
      | inr blocked =>
          rw [openObject_of_blocked blocked]
          rfl
  | head key =>
      dsimp only [StoreCall.key] at obstructed
      dsimp only [answer, head]
      cases obstructed with
      | inl directory =>
          rw [openObject_of_node directory]
          rfl
      | inr blocked =>
          rw [openObject_of_blocked blocked]
          rfl
  | delete key =>
      dsimp only [StoreCall.key] at obstructed
      dsimp only [answer, delete]
      cases obstructed with
      | inl directory =>
          rw [presentNotLink_of_node directory, FileTree.removeFile_of_directory directory]
          rfl
      | inr blocked =>
          rw [presentNotLink_of_blocked blocked]
          rfl

/-- **A call that is clear is answered as by a map, and leaves what a map holds.** -/
theorem answer_clear {call : StoreCall} (holds : Holds store.bounds dir objects put)
    (within : call.oversized store.bounds = false)
    (beneath : ∀ other ∈ put, ¬ other.Beneath call.key)
    (above : ∀ other, call.key.Beneath other → objects other = none) :
    (store.answer dir call).2 = (Catalogue.answer store.bounds objects call).2 ∧
      Holds store.bounds (store.answer dir call).1 (Catalogue.answer store.bounds objects call).1
        (put ++ (call.placed store.bounds).toList) := by
  cases call with
  | put key bytes contentType =>
      dsimp only [StoreCall.key] at beneath above
      have small : bytes.length ≤ store.bounds.maxObjectBytes :=
        Nat.not_lt.mp (of_decide_eq_false within)
      have checked : store.bounds.check bytes.length = .ok () := if_neg (Nat.not_lt.mpr small)
      have placed : StoreCall.placed store.bounds (.put key bytes contentType) = some key :=
        if_neg (Bool.eq_false_iff.mp within)
      obtain ⟨parent, name, split⟩ := relative_split objectsTree key
      have clear : ∀ front content, front <+: parent → dir.node front ≠ some (.file content) := by
        intro front content starts file
        have inside : front <+: relative objectsTree key := by
          rw [split]
          exact starts.trans (List.prefix_append parent [name])
        have longer := starts.length_le
        rw [(holds.way_clear above inside file).1, split, List.length_append,
          List.length_singleton] at longer
        omega
      have free : dir.node (parent ++ [name]) ≠ some .directory := by
        rw [← split]
        exact holds.not_directory beneath
      have present : ∃ found, presentNotLink dir (relative objectsTree key) = .ok found := by
        cases held : objects key with
        | some object => exact ⟨true, presentNotLink_of_node (holds.node_of_held held)⟩
        | none => exact ⟨false, presentNotLink_of_absent (holds.stat_of_absent beneath above held)⟩
      obtain ⟨found, present⟩ := present
      obtain ⟨after, writes, leaves⟩ := writeAtomically_of_clear clear free ⟨bytes, contentType⟩
      rw [placed]
      dsimp only [answer, FilesystemStore.put, Catalogue.answer]
      rw [checked]
      dsimp only
      rw [present]
      dsimp only
      rw [split, writes]
      exact ⟨rfl, holds.write beneath above small split leaves⟩
  | get key =>
      dsimp only [StoreCall.key] at beneath above
      dsimp only [answer, Catalogue.answer, StoreCall.placed, Option.toList]
      rw [List.append_nil]
      refine ⟨congrArg _ ?_, holds⟩
      cases held : objects key with
      | some object => exact get_of_file (holds.node_of_held held) (holds.bounded key object held)
      | none =>
          unfold get
          rw [openObject_of_absent (holds.stat_of_absent beneath above held)]
          rfl
  | head key =>
      dsimp only [StoreCall.key] at beneath above
      dsimp only [answer, Catalogue.answer, StoreCall.placed, Option.toList]
      rw [List.append_nil]
      refine ⟨congrArg _ ?_, holds⟩
      cases held : objects key with
      | some object => exact head_of_file (holds.node_of_held held)
      | none =>
          unfold head
          rw [openObject_of_absent (holds.stat_of_absent beneath above held)]
          rfl
  | delete key =>
      dsimp only [StoreCall.key] at beneath above
      dsimp only [answer, Catalogue.answer, delete, StoreCall.placed, Option.toList]
      rw [List.append_nil]
      cases held : objects key with
      | some object =>
          have file := holds.node_of_held held
          obtain ⟨after, removes, leaves⟩ := FileTree.removeFile_of_file file
          rw [presentNotLink_of_node file, removes]
          exact ⟨rfl, holds.remove beneath leaves⟩
      | none =>
          rw [presentNotLink_of_absent (holds.stat_of_absent beneath above held)]
          exact ⟨rfl, holds⟩

/-- A call that is not clear is not answered as by a map. -/
theorem answer_obstructed {call : StoreCall} (holds : Holds store.bounds dir objects put)
    (within : call.oversized store.bounds = false)
    (obstructed : ¬ ((∀ other ∈ put, ¬ other.Beneath call.key) ∧
      ∀ other, call.key.Beneath other → objects other = none)) :
    (store.answer dir call).2 ≠ (Catalogue.answer store.bounds objects call).2 := by
  have failed : (store.answer dir call).2.failed = true := by
    refine answer_failed within ?_
    by_contra clear
    rw [not_or] at clear
    refine obstructed ⟨fun other member beneath => ?_, fun other beneath => ?_⟩
    · exact clear.1 (holds.node_of_beneath member beneath)
    · cases held : objects other with
      | none => rfl
      | some object => exact (clear.2 (holds.stat_of_above beneath held)).elim
  intro same
  rw [same, Catalogue.answer_not_failed within] at failed
  cases failed

/-- A call that a bound refuses is refused alike, and leaves everything. -/
theorem answer_oversized {call : StoreCall} (large : call.oversized store.bounds = true) :
    store.answer dir call = (dir, .put (.error (.refused .objectTooLarge))) ∧
      Catalogue.answer store.bounds objects call =
        (objects, .put (.error (.refused .objectTooLarge))) ∧ call.placed store.bounds = none := by
  cases call with
  | put key bytes contentType =>
      have checked : store.bounds.check bytes.length = .error (.refused .objectTooLarge) :=
        if_pos (of_decide_eq_true large)
      dsimp only [answer, FilesystemStore.put, Catalogue.answer]
      rw [checked]
      exact ⟨rfl, rfl, if_pos large⟩
  | get key => cases large
  | head key => cases large
  | delete key => cases large

end Call

/-! ## Any sequence of calls -/

/-- A root under which nothing was put. -/
structure Fresh (root : Directory) : Prop where
  base : ∀ content, root.node [objectsTree] ≠ some (.file content)
  beyond : ∀ path, path ≠ [] → root.node (objectsTree :: path) = none

theorem Fresh.holds {root : Directory} (fresh : Fresh root) :
    Holds bounds root Catalogue.empty [] := by
  refine ⟨?_, ?_, nofun⟩
  · intro path content
    refine iff_of_false (fun file => ?_) (by rintro ⟨_, _, _, ⟨⟩, _⟩)
    by_cases filled : path = []
    · rw [filled] at file
      exact fresh.base content file
    · rw [fresh.beyond path filled] at file
      cases file
  · intro path filled
    rw [fresh.beyond path filled]
    exact iff_of_false nofun (by rintro ⟨_, member, _⟩; cases member)

/-- The store in a directory mirrors a map as long as the calls are clear. -/
theorem mirroring (store : FilesystemStore) :
    store.machine.Mirroring (Catalogue.machine store.bounds)
      (fun past dir objects =>
        Holds store.bounds dir objects (past.filterMap (StoreCall.placed store.bounds)))
      (StoreCall.Clear store.bounds) := by
  have placed : ∀ past call, (past ++ [call]).filterMap (StoreCall.placed store.bounds) =
      past.filterMap (StoreCall.placed store.bounds) ++ (call.placed store.bounds).toList := by
    intro past call
    rw [List.filterMap_append]
    cases known : call.placed store.bounds with
    | none => simp [known]
    | some key => simp [known]
  constructor
  · intro past dir objects call holds
    cases large : call.oversized store.bounds with
    | true =>
        obtain ⟨answers, same, _⟩ := @answer_oversized dir objects store call large
        refine iff_of_true ?_ fun within => ?_
        · show (store.answer dir call).2 = (Catalogue.answer store.bounds objects call).2
          rw [answers, same]
        · cases large.symm.trans within
    | false =>
        constructor
        · intro same _
          by_contra obstructed
          exact answer_obstructed holds large obstructed same
        · intro clear
          exact (answer_clear holds large (clear large).1 (clear large).2).1
  · intro past dir objects call holds clear
    rw [placed]
    cases large : call.oversized store.bounds with
    | true =>
        obtain ⟨answers, same, none⟩ := @answer_oversized dir objects store call large
        show Holds store.bounds (store.answer dir call).1
          (Catalogue.answer store.bounds objects call).1 _
        rw [answers, same, none, Option.toList_none, List.append_nil]
        exact holds
    | false => exact (answer_clear holds large (clear large).1 (clear large).2).2

end FilesystemStore

/-- **The store in a directory answers a sequence of calls as a map does, and as the
store in memory with room without limit, exactly when it is unobstructed.** -/
theorem filesystem_agrees_iff (store : FilesystemStore) {root : Directory}
    (fresh : FilesystemStore.Fresh root) (calls : List StoreCall) :
    (store.machine.log root calls = (Catalogue.machine store.bounds).log Catalogue.empty calls ∧
      store.machine.log root calls = (MemoryStore.mk store.bounds MemoryStore.unlimited).machine.log
        MemoryStore.empty calls) ↔ Unobstructed store.bounds calls := by
  have memory := @MemoryStore.log_unlimited ⟨store.bounds, MemoryStore.unlimited⟩ rfl calls
  have mirrored := @Machine.log_eq_iff _ _ _ _ _ _ _ _ store.mirroring [] root Catalogue.empty
    fresh.holds calls
  rw [memory, and_self_iff, mirrored]
  rfl

/-- The empty root is one. -/
theorem fresh_empty : FilesystemStore.Fresh FileTree.empty := ⟨nofun, fun _ _ => rfl⟩

def storeOfDefaults : FilesystemStore := ⟨.default, 4096⟩

def nestedKey : ObjectKey := ⟨"a/b", by decide +kernel⟩

def siblingKey : ObjectKey := ⟨"a/c", by decide +kernel⟩

def outerKey : ObjectKey := ⟨"a", by decide +kernel⟩

/-- Keys beside each other. -/
theorem filesystem_agrees_siblings : Unobstructed storeOfDefaults.bounds
    [.put nestedKey [1] none, .put siblingKey [2] none, .get nestedKey, .delete nestedKey,
      .get siblingKey] := by
  refine (filesystem_agrees_iff storeOfDefaults fresh_empty _).mp ⟨?_, ?_⟩
  · decide +kernel
  · decide +kernel

/-- **An object hides the key its path leads through.** -/
theorem nested_object_hides :
    (storeOfDefaults.machine.log FileTree.empty [.put nestedKey [1] none, .get outerKey]).map
        Prod.snd = [.put (.ok ()), .get (.error .unavailable)] ∧
      ((Catalogue.machine storeOfDefaults.bounds).log Catalogue.empty
        [.put nestedKey [1] none, .get outerKey]).map Prod.snd =
          [.put (.ok ()), .get (.ok none)] := by
  decide +kernel

end Renvor
