import Renvor.Generate.PlaceStages

/-! # Runs at one destination, in any interleaving

Runs whose staging directories have other names than the destination keep to
their own directories, at most one of them is placed, and what is there stays
(`Renvor.Generate.runs_place`).
-/

namespace Renvor.Generate

open Foundation
open Foundation.Concurrent (Event World Places RepliedSince repliedSince_append
  not_repliedSince_started)

abbrev RunEvent (Thread : Type) :=
  Event Thread FsOperation FsOperation.Reply Empty Call Empty (Except Failure Unit)

abbrev RunWorld (Thread : Type) :=
  World Thread Entries FsOperation FsOperation.Reply Empty Call Empty (Except Failure Unit)

variable {Thread : Type}

/-! ## What a run did -/

/-- The staging directory was created. -/
def Created (plan : Plan) : (operation : FsOperation) → Except Empty operation.Reply → Prop
  | .createDir name, .ok (.ok ()) => name = plan.name
  | _, _ => False

/-- The staging directory was removed. -/
def Removed (plan : Plan) : (operation : FsOperation) → Except Empty operation.Reply → Prop
  | .removeDirAll name _, .ok (.ok ()) => name = plan.name
  | _, _ => False

/-- The staging directory was moved away. -/
def Moved (plan : Plan) : (operation : FsOperation) → Except Empty operation.Reply → Prop
  | .rename source _, .ok (.ok ()) => source = plan.name
  | _, _ => False

/-- The run created its staging directory, and neither removed nor moved it since. -/
structure Owns (events : List (RunEvent Thread)) (thread : Thread) (plan : Plan) : Prop where
  created : RepliedSince (Created plan) events thread (.generate plan)
  unremoved : ¬ RepliedSince (Removed plan) events thread (.generate plan)
  unmoved : ¬ RepliedSince (Moved plan) events thread (.generate plan)

/-- A run returned that its tree is in place. -/
def Settles (event : RunEvent Thread) : Prop :=
  ∃ thread plan, event = .returned thread (.generate plan) (.ok (.ok ()))

/-- Neither absent nor an empty directory. -/
def Occupied (entry : Option Entry) : Prop := entry ≠ none ∧ entry ≠ some (.directory [])

theorem Tree.put_ne (tree : Tree) (path : String) (content : Option (List Byte)) :
    tree.put path content ≠ [] := by
  unfold Tree.put
  simp

theorem Tree.foldl_put_ne (items : List (String × Option (List Byte))) {tree : Tree}
    (filled : tree ≠ []) : items.foldl (fun tree item => tree.put item.1 item.2) tree ≠ [] := by
  induction items generalizing tree with
  | nil => exact filled
  | cons item rest ih => exact ih (Tree.put_ne tree item.1 item.2)

/-- A staged tree is not empty. -/
theorem Plan.staged_ne (plan : Plan) : plan.staged ≠ [] := by
  have filled := plan.filled
  unfold Plan.staged
  cases items : plan.items with
  | nil => exact (filled items).elim
  | cons item rest => exact Tree.foldl_put_ne rest (Tree.put_ne _ _ _)

/-- The tree in a run's staging directory. -/
def Stage.tree : Stage → Option Tree
  | made => some []
  | filling tree => some tree
  | _ => none

/-- What a step of a run does to the directory. -/
inductive Acts (destination : Destination) (plan : Plan) (entries : Entries) (stage : Stage) :
    (operation : FsOperation) → operation.Reply → Entries → Stage → Prop
  | created (opening : stage = .opening) (absent : entries plan.name = none) :
      Acts destination plan entries stage (.createDir plan.name) (.ok ())
        (Function.update entries plan.name (some (.directory []))) .made
  -- nothing, and nothing that counts as creating, removing or moving
  | nothing {operation : FsOperation} {reply : operation.Reply} {reached : Stage}
      (idle : ¬ Created plan operation (.ok reply) ∧ ¬ Removed plan operation (.ok reply) ∧
        ¬ Moved plan operation (.ok reply))
      (same : reached = stage ∨ stage = .made ∧ reached = .filling []) :
      Acts destination plan entries stage operation reply entries reached
  | changed {operation : FsOperation} {reply : operation.Reply} {reached : Stage} {tree : Tree}
      (held : stage.Held)
      (idle : ¬ Created plan operation (.ok reply) ∧ ¬ Removed plan operation (.ok reply) ∧
        ¬ Moved plan operation (.ok reply))
      (left : reached = .filling tree ∨ reached = .left) :
      Acts destination plan entries stage operation reply
        (Function.update entries plan.name (some (.directory tree))) reached
  | removed {stuck : Option (Nat × IoErrorKind)} (held : stage.Held) :
      Acts destination plan entries stage (.removeDirAll plan.name stuck) (.ok ())
        (Function.update entries plan.name none) .cleared
  | moved (filled : stage = .filling plan.staged) (free : ¬ Occupied (entries destination.name)) :
      Acts destination plan entries stage (.rename plan.name destination.name) (.ok ())
        (Function.update (Function.update entries plan.name none) destination.name
          (some (.directory plan.staged))) .placed

variable {destination : Destination} {plan : Plan} {entries : Entries} {stage : Stage}

theorem Stage.Held.tree (held : stage.Held) : ∃ tree, stage.tree = some tree := by
  cases stage with
  | made => exact ⟨_, rfl⟩
  | filling tree => exact ⟨_, rfl⟩
  | opening | placed | cleared | left => exact held.elim

/-- Removing a staging directory that is there. -/
theorem acts_remove {stuck : Option (Nat × IoErrorKind)} {tree : Tree} (held : stage.Held)
    (there : entries plan.name = some (.directory tree)) :
    Acts destination plan entries stage (.removeDirAll plan.name stuck)
      (FsOperation.run (.removeDirAll plan.name stuck) entries).1
      (FsOperation.run (.removeDirAll plan.name stuck) entries).2
      (advance stage (.removeDirAll plan.name stuck)
        (FsOperation.run (.removeDirAll plan.name stuck) entries).1) := by
  cases stuck with
  | none =>
      have ran : FsOperation.run (.removeDirAll plan.name none) entries =
          (.ok (), Function.update entries plan.name none) := by
        simp only [FsOperation.run, FsOperation.runChange, there]
      rw [ran]
      cases stage with
      | made | filling => exact .removed held
      | opening | placed | cleared | left => exact held.elim
  | some stuck =>
      have ran : FsOperation.run (.removeDirAll plan.name (some stuck)) entries =
          (.error stuck.2,
            Function.update entries plan.name (some (.directory (tree.drop stuck.1)))) := by
        simp only [FsOperation.run, FsOperation.runChange, there]
      rw [ran]
      cases stage with
      | made | filling => exact .changed held ⟨id, id, id⟩ (.inr rfl)
      | opening | placed | cleared | left => exact held.elim

/-- A staged tree takes the destination only where nothing is there, or nothing in it. -/
theorem rename_cases (apart : plan.name ≠ destination.name) {tree : Tree}
    (there : entries plan.name = some (.directory tree)) :
    (¬ Occupied (entries destination.name) ∧
      FsOperation.run (.rename plan.name destination.name) entries =
        (.ok (), Function.update (Function.update entries plan.name none) destination.name
          (some (.directory tree)))) ∨
      ∃ kind, FsOperation.run (.rename plan.name destination.name) entries =
        (.error kind, entries) := by
  simp only [FsOperation.run, FsOperation.runRename, there, if_neg apart]
  cases found : entries destination.name with
  | none => exact .inl ⟨fun occupied => occupied.1 rfl, rfl⟩
  | some entry =>
      cases entry with
      | directory old =>
          cases old with
          | nil => exact .inl ⟨fun occupied => occupied.2 rfl, rfl⟩
          | cons item rest => exact .inr ⟨_, rfl⟩
      | file | symlink | other => exact .inr ⟨_, rfl⟩

/-- **What a step of a run does.** -/
theorem acts {operation : FsOperation}
    (allowed : allows destination (.generate plan) stage operation)
    (apart : plan.name ≠ destination.name)
    (there : ∀ tree, stage.tree = some tree → entries plan.name = some (.directory tree)) :
    Acts destination plan entries stage operation (operation.run entries).1
      (operation.run entries).2 (advance stage operation (operation.run entries).1) := by
  cases stage with
  | opening =>
      obtain rfl : operation = .createDir plan.name := allowed
      cases found : entries plan.name with
      | none =>
          have ran : FsOperation.run (.createDir plan.name) entries =
              (.ok (), Function.update entries plan.name (some (.directory []))) := by
            simp only [FsOperation.run, FsOperation.runCreate, found]
          rw [ran]
          exact .created rfl found
      | some entry =>
          have ran : FsOperation.run (.createDir plan.name) entries =
              (.error .alreadyExists, entries) := by
            simp only [FsOperation.run, FsOperation.runCreate, found]
          rw [ran]
          exact .nothing ⟨id, id, id⟩ (.inl rfl)
  | made =>
      obtain rfl | ⟨stuck, rfl⟩ := allowed
      · have ran : FsOperation.run (.openDir plan.name) entries = (.ok (), entries) := by
          simp only [FsOperation.run, there [] rfl]
        rw [ran]
        exact .nothing ⟨id, id, id⟩ (.inr ⟨rfl, rfl⟩)
      · exact acts_remove trivial (there [] rfl)
  | filling tree =>
      obtain ⟨path, content, rfl⟩ | ⟨rfl, rfl | rfl⟩ | ⟨stuck, rfl⟩ := allowed
      · have ran : FsOperation.run (.write plan.name path content) entries =
            (.ok (), Function.update entries plan.name (some (.directory (tree.put path content)))) := by
          simp only [FsOperation.run, FsOperation.runChange, there tree rfl]
        rw [ran]
        exact .changed trivial ⟨id, id, id⟩ (.inl rfl)
      · have ran : (FsOperation.run (.symlinkMetadata destination.name) entries).2 = entries := by
          unfold FsOperation.run
          dsimp only
          split <;> rfl
        rw [ran]
        exact .nothing ⟨id, id, id⟩ (.inl rfl)
      · obtain ⟨free, ran⟩ | ⟨kind, ran⟩ := rename_cases apart (there _ rfl)
        · rw [ran]
          exact .moved rfl free
        · rw [ran]
          exact .nothing ⟨id, id, id⟩ (.inl rfl)
      · exact acts_remove trivial (there tree rfl)
  | placed | cleared | left => exact allowed.elim

/-! ## Whose staging directory it is -/

section Owning

variable {events : List (RunEvent Thread)} {event : RunEvent Thread} {thread : Thread}

/-- A run owned its directory before the last event, or created it in that event. -/
theorem Owns.of_append (owns : Owns (events ++ [event]) thread plan) :
    Owns events thread plan ∨ ∃ operation reply, Created plan operation reply ∧
      event = .ran thread (.generate plan) operation (some reply) := by
  obtain ⟨created, other⟩ | created := owns.created.of_append
  · exact .inl ⟨created, fun removed => owns.unremoved (removed.append other),
      fun moved => owns.unmoved (moved.append other)⟩
  · exact .inr created

theorem Owns.append (owns : Owns events thread plan) (other : ∀ call, event ≠ .started thread call)
    (idle : ∀ operation reply, Removed plan operation reply ∨ Moved plan operation reply →
      event ≠ .ran thread (.generate plan) operation (some reply)) :
    Owns (events ++ [event]) thread plan where
  created := owns.created.append other
  unremoved := by
    rw [repliedSince_append other fun operation reply removed => idle operation reply (.inl removed)]
    exact owns.unremoved
  unmoved := by
    rw [repliedSince_append other fun operation reply moved => idle operation reply (.inr moved)]
    exact owns.unmoved

/-- What another thread does leaves a run's directory its own. -/
theorem Owns.elsewhere {other : Thread} {call : Call} {operation : FsOperation}
    {did : Option (Except Empty operation.Reply)} (owns : Owns events other plan)
    (different : other ≠ thread) :
    Owns (events ++ [.ran thread call operation did]) other plan := by
  apply owns.append
  · rintro _ ⟨⟩
  · rintro _ _ _ ⟨⟩
    exact different rfl

theorem created_inv {operation : FsOperation} {reply : Except Empty operation.Reply}
    (created : Created plan operation reply) : operation = .createDir plan.name := by
  unfold Created at created
  split at created
  · rw [created]
  · exact created.elim

/-- A directory that is created was not there. -/
theorem created_absent
    (created : Created plan (.createDir plan.name)
      (.ok (FsOperation.run (.createDir plan.name) entries).1)) :
    entries plan.name = none ∧ (FsOperation.run (.createDir plan.name) entries).2 =
      Function.update entries plan.name (some (.directory [])) := by
  cases found : entries plan.name with
  | none =>
      refine ⟨rfl, ?_⟩
      simp only [FsOperation.run, FsOperation.runCreate, found]
  | some entry =>
      simp only [FsOperation.run, FsOperation.runCreate, found] at created
      exact created.elim

end Owning

/-! ## What every run keeps -/

/-- Where a call is, given the events and the entries so far. -/
structure Placed (destination : Destination) (events : List (RunEvent Thread)) (entries : Entries)
    (thread : Thread) (call : Call) (stage : Stage) : Prop where
  mine : ∀ plan, Owns events thread plan → call = .generate plan
  apart : ∀ plan, call = .generate plan → plan.name ≠ destination.name
  unmade : ∀ plan, call = .generate plan → stage = .opening →
    ¬ RepliedSince (Created plan) events thread call ∧
      ¬ RepliedSince (Removed plan) events thread call ∧
      ¬ RepliedSince (Moved plan) events thread call
  held : ∀ plan, call = .generate plan → ∀ tree, stage.tree = some tree →
    Owns events thread plan ∧ entries plan.name = some (.directory tree)
  cleared : ∀ plan, call = .generate plan → stage = .cleared →
    RepliedSince (Removed plan) events thread call

/-- The thread's run is placed, and has yet to return. -/
def Settling (world : RunWorld Thread) (stages : Thread → Stage) (thread : Thread) (plan : Plan) :
    Prop :=
  (∃ script, world.running thread = some (.generate plan, script)) ∧ stages thread = .placed

/-- What every run keeps. -/
structure Kept (destination : Destination) (events : List (RunEvent Thread))
    (world : RunWorld Thread) (stages : Thread → Stage) : Prop where
  places : Places (Placed destination events world.store) world stages
  owned : ∀ thread plan, Owns events thread plan → plan.name ≠ destination.name ∧
    ∃ tree, world.store plan.name = some (.directory tree)
  alone : ∀ thread other plan another, Owns events thread plan → Owns events other another →
    plan.name = another.name → thread = other
  settled : ∀ thread plan, Settling world stages thread plan ∨
      .returned thread (.generate plan) (.ok (.ok ())) ∈ events →
    world.store destination.name = some (.directory plan.staged)
  single : ∀ thread other plan another, Settling world stages thread plan →
    Settling world stages other another → thread = other
  unanswered : ∀ thread plan, Settling world stages thread plan → ∀ event ∈ events, ¬ Settles event
  once : events.Pairwise fun event later => Settles event → ¬ Settles later
  reported : ∀ front thread plan failure,
    front ++ [.returned thread (.generate plan) (.ok (.error failure))] <+: events →
    ¬ RepliedSince (Created plan) front thread (.generate plan) ∨
      RepliedSince (Removed plan) front thread (.generate plan) ∨
      Failure.Reports destination plan failure

/-- Runs keep their staging directories apart from the destination. -/
def NamesApart (destination : Destination) (event : RunEvent Thread) : Prop :=
  ∀ thread plan, event = .started thread (.generate plan) → plan.name ≠ destination.name

/-- What is there and is not a run's own stays as a step of a call finds it. -/
theorem run_elsewhere {call : Call} {operation : FsOperation} {name : String}
    (allowed : allows destination call stage operation)
    (apart : ∀ plan, call = .generate plan → plan.name ≠ destination.name)
    (there : ∀ plan, call = .generate plan → ∀ tree, stage.tree = some tree →
      entries plan.name = some (.directory tree))
    (present : entries name ≠ none) (occupied : name = destination.name → Occupied (entries name))
    (other : ∀ plan, call = .generate plan → stage.Held → plan.name ≠ name) :
    (operation.run entries).2 name = entries name := by
  cases call with
  | make made entry =>
      obtain rfl : operation = .make made entry := by
        cases stage <;> exact allowed
      show (FsOperation.runCreate made entry entries).2 name = _
      unfold FsOperation.runCreate
      cases found : entries made with
      | some there => rfl
      | none =>
          refine Function.update_of_ne ?_ _ _
          rintro rfl
          exact present found
  | populate tree =>
      obtain rfl : operation = .populate destination.name tree := by
        cases stage <;> exact allowed
      unfold FsOperation.run
      dsimp only
      split
      next empty =>
        refine Function.update_of_ne ?_ _ _
        rintro rfl
        exact (occupied rfl).2 empty
      next => rfl
  | generate plan =>
      have acted := acts allowed (apart plan rfl) (there plan rfl)
      generalize (operation.run entries).1 = reply at acted
      generalize (operation.run entries).2 = after at acted ⊢
      cases acted with
      | created opening absent =>
          refine Function.update_of_ne ?_ _ _
          rintro rfl
          exact present absent
      | nothing => rfl
      | changed held => exact Function.update_of_ne (other plan rfl held).symm _ _
      | removed held => exact Function.update_of_ne (other plan rfl held).symm _ _
      | moved filled free =>
          have different : name ≠ destination.name := by
            rintro rfl
            exact free (occupied rfl)
          rw [Function.update_of_ne different, Function.update_of_ne]
          refine (other plan rfl ?_).symm
          rw [filled]
          trivial

/-- An operation always runs, and its caller is told what it did. -/
theorem performed {entries' : Entries} {operation : FsOperation}
    {did : Option (Except Empty operation.Reply)} {told : Except Empty operation.Reply}
    {start : Entries}
    (performs : ∃ fate, (calls destination start).perform fate operation entries =
      (did, told, entries')) :
    did = some (.ok (operation.run entries).1) ∧ told = .ok (operation.run entries).1 ∧
      entries' = (operation.run entries).2 := by
  obtain ⟨fate, performs⟩ := performs
  cases fate with
  | works =>
      cases performs
      exact ⟨rfl, rfl, rfl⟩
  | fails fault => cases fault
  | lost fault => cases fault

section Steps

variable {events : List (RunEvent Thread)} {world : RunWorld Thread} {stages : Thread → Stage}
  {thread : Thread} {call : Call}

/-- What a run's own step leaves of where it is. -/
theorem Placed.acted {operation : FsOperation} {reply : operation.Reply} {after : Entries}
    {reached : Stage}
    (placed : Placed destination events entries thread (.generate plan) stage)
    (acted : Acts destination plan entries stage operation reply after reached) :
    Placed destination (events ++ [.ran thread (.generate plan) operation (some (.ok reply))]) after
      thread (.generate plan) reached := by
  have started : ∀ call, (Event.ran thread (.generate plan) operation (some (.ok reply)) :
      RunEvent Thread) ≠ .started thread call := by
    rintro _ ⟨⟩
  have mine : ∀ another,
      Owns (events ++ [.ran thread (.generate plan) operation (some (.ok reply))]) thread another →
      Call.generate plan = .generate another := by
    intro another owns
    obtain before | ⟨_, _, _, same⟩ := owns.of_append
    · exact placed.mine another before
    · cases same
      rfl
  refine ⟨mine, placed.apart, ?_, ?_, ?_⟩
  · rintro _ ⟨⟩ opening
    cases acted with
    | created | removed | moved => cases opening
    | changed _ _ left => obtain rfl | rfl := left <;> cases opening
    | nothing idle same =>
        obtain rfl | ⟨_, rfl⟩ := same
        · obtain ⟨created, removed, moved⟩ := placed.unmade plan rfl opening
          refine ⟨?_, ?_, ?_⟩
          · rw [repliedSince_append started]
            · exact created
            · rintro _ _ replied ⟨⟩
              exact idle.1 replied
          · rw [repliedSince_append started]
            · exact removed
            · rintro _ _ replied ⟨⟩
              exact idle.2.1 replied
          · rw [repliedSince_append started]
            · exact moved
            · rintro _ _ replied ⟨⟩
              exact idle.2.2 replied
        · cases opening
  · rintro _ ⟨⟩ tree now
    have stays : Owns events thread plan → ¬ Removed plan operation (.ok reply) ∧
        ¬ Moved plan operation (.ok reply) →
        Owns (events ++ [.ran thread (.generate plan) operation (some (.ok reply))]) thread plan := by
      intro owns idle
      refine owns.append started ?_
      rintro _ _ (replied | replied) ⟨⟩
      · exact idle.1 replied
      · exact idle.2 replied
    cases acted with
    | removed | moved => cases now
    | created opening absent =>
        cases now
        obtain ⟨_, removed, moved⟩ := placed.unmade plan rfl opening
        refine ⟨⟨.now rfl, ?_, ?_⟩, Function.update_self ..⟩
        · rw [repliedSince_append started]
          · exact removed
          · rintro _ _ replied ⟨⟩
            exact replied
        · rw [repliedSince_append started]
          · exact moved
          · rintro _ _ replied ⟨⟩
            exact replied
    | nothing idle same =>
        obtain rfl | ⟨rfl, rfl⟩ := same
        · obtain ⟨owns, there⟩ := placed.held plan rfl tree now
          exact ⟨stays owns idle.2, there⟩
        · cases now
          obtain ⟨owns, there⟩ := placed.held plan rfl [] rfl
          exact ⟨stays owns idle.2, there⟩
    | changed held idle left =>
        obtain ⟨old, here⟩ := held.tree
        obtain rfl | rfl := left
        · cases now
          exact ⟨stays (placed.held plan rfl old here).1 idle.2, Function.update_self ..⟩
        · cases now
  · rintro _ ⟨⟩ cleared
    cases acted with
    | created | moved => cases cleared
    | changed _ _ left => obtain rfl | rfl := left <;> cases cleared
    | removed => exact .now rfl
    | nothing idle same =>
        obtain rfl | ⟨_, rfl⟩ := same
        · exact (placed.cleared plan rfl cleared).append started
        · cases cleared

/-- What happens elsewhere leaves where a call is. -/
theorem Placed.later {event : RunEvent Thread} {after : Entries}
    (placed : Placed destination events entries thread call stage)
    (started : ∀ call, event ≠ .started thread call)
    (elsewhere : ∀ call operation did, event ≠ .ran thread call operation did)
    (same : ∀ plan, Owns events thread plan → ∀ tree, entries plan.name = some (.directory tree) →
      after plan.name = some (.directory tree)) :
    Placed destination (events ++ [event]) after thread call stage where
  mine plan owns := by
    obtain before | ⟨operation, reply, _, rfl⟩ := owns.of_append
    · exact placed.mine plan before
    · exact (elsewhere _ _ _ rfl).elim
  apart := placed.apart
  unmade plan called opening := by
    rw [repliedSince_append started fun _ _ _ => elsewhere _ _ _,
      repliedSince_append started fun _ _ _ => elsewhere _ _ _,
      repliedSince_append started fun _ _ _ => elsewhere _ _ _]
    exact placed.unmade plan called opening
  held plan called tree now := by
    obtain ⟨owns, there⟩ := placed.held plan called tree now
    exact ⟨owns.append started fun _ _ _ => elsewhere _ _ _, same plan owns tree there⟩
  cleared plan called cleared := (placed.cleared plan called cleared).append started

theorem staged_occupied (plan : Plan) : Occupied (some (.directory plan.staged)) :=
  ⟨by simp, fun empty => plan.staged_ne (Entry.directory.inj (Option.some.inj empty))⟩

/-- A step of a call, with what it finds in the directory. -/
structure Ran (destination : Destination) (events : List (RunEvent Thread)) (world : RunWorld Thread)
    (stages : Thread → Stage) (thread : Thread) (call : Call) (operation : FsOperation) : Prop where
  kept : Kept destination events world stages
  placed : Placed destination events world.store thread call (stages thread)
  allowed : allows destination call (stages thread) operation

namespace Ran

variable {operation : FsOperation} (ran : Ran destination events world stages thread call operation)

include ran

/-- A directory of another run stays as it is. -/
theorem others {other : Thread} {another : Plan} (different : other ≠ thread)
    (owns : Owns events other another) :
    (operation.run world.store).2 another.name = world.store another.name := by
  obtain ⟨apart, tree, there⟩ := ran.kept.owned other another owns
  refine run_elsewhere ran.allowed ran.placed.apart (fun plan called tree now =>
    (ran.placed.held plan called tree now).2) (by rw [there]; simp) (fun same => (apart same).elim) ?_
  intro plan called held same
  obtain ⟨tree, now⟩ := held.tree
  have mine := (ran.placed.held plan called tree now).1
  exact different (ran.kept.alone other thread another plan owns mine same.symm)

/-- An occupied destination stays as it is. -/
theorem destination_stays (occupied : Occupied (world.store destination.name)) :
    (operation.run world.store).2 destination.name = world.store destination.name :=
  run_elsewhere ran.allowed ran.placed.apart (fun plan called tree now =>
    (ran.placed.held plan called tree now).2) occupied.1 (fun _ => occupied)
    fun plan called _ => ran.placed.apart plan called

/-- A run that comes to be placed found the destination free, and leaves its tree there. -/
theorem moves (called : call = .generate plan)
    (placed : advance (stages thread) operation (operation.run world.store).1 = .placed) :
    ¬ Occupied (world.store destination.name) ∧
      (operation.run world.store).2 destination.name = some (.directory plan.staged) := by
  subst called
  have acted := acts ran.allowed (ran.placed.apart plan rfl) fun tree now =>
    (ran.placed.held plan rfl tree now).2
  have allowed := ran.allowed
  generalize advance (stages thread) operation (operation.run world.store).1 = reached at acted placed
  generalize (operation.run world.store).1 = reply at acted
  generalize (operation.run world.store).2 = after at acted ⊢
  cases acted with
  | moved filled free => exact ⟨free, Function.update_self ..⟩
  | created | removed => cases placed
  | changed _ _ left => obtain rfl | rfl := left <;> cases placed
  | nothing _ same =>
      obtain rfl | ⟨_, rfl⟩ := same
      · rw [placed] at allowed
        exact allowed.elim
      · cases placed

/-- What a run owned before its own step, it owns unless the step removed or moved
it, and it is there. -/
theorem own {another : Plan} (owns : Owns (events ++
      [.ran thread call operation (some (.ok (operation.run world.store).1))]) thread another) :
    another.name ≠ destination.name ∧
      ∃ tree, (operation.run world.store).2 another.name = some (.directory tree) := by
  have called : call = .generate another := by
    obtain before | ⟨_, _, _, ⟨⟩⟩ := owns.of_append
    · exact ran.placed.mine another before
    · rfl
  subst called
  refine ⟨ran.placed.apart another rfl, ?_⟩
  have acted := acts ran.allowed (ran.placed.apart another rfl) fun tree now =>
    (ran.placed.held another rfl tree now).2
  generalize advance (stages thread) operation (operation.run world.store).1 = reached at acted
  generalize (operation.run world.store).1 = reply at acted owns
  generalize (operation.run world.store).2 = after at acted ⊢
  cases acted with
  | created => exact ⟨_, Function.update_self ..⟩
  | changed => exact ⟨_, Function.update_self ..⟩
  | removed => exact (owns.unremoved (.now rfl)).elim
  | moved => exact (owns.unmoved (.now rfl)).elim
  | nothing idle =>
      obtain before | ⟨_, _, created, ⟨⟩⟩ := owns.of_append
      · exact (ran.kept.owned thread another before).2
      · exact (idle.1 created).elim

/-- Where the call is after its step. -/
theorem here : Placed destination (events ++
      [.ran thread call operation (some (.ok (operation.run world.store).1))])
    (operation.run world.store).2 thread call
    (advance (stages thread) operation (operation.run world.store).1) := by
  have mine : ∀ plan, Owns (events ++
      [.ran thread call operation (some (.ok (operation.run world.store).1))]) thread plan →
      call = .generate plan := by
    intro plan owns
    obtain before | ⟨_, _, _, ⟨⟩⟩ := owns.of_append
    · exact ran.placed.mine plan before
    · rfl
  cases called : call with
  | generate plan =>
      subst called
      exact ran.placed.acted (acts ran.allowed (ran.placed.apart plan rfl) fun tree now =>
        (ran.placed.held plan rfl tree now).2)
  | make name entry | populate tree =>
      subst called
      refine ⟨mine, ran.placed.apart, ?_, ?_, ?_⟩
      · rintro _ ⟨⟩
      · rintro _ ⟨⟩
      · rintro _ ⟨⟩

/-- Where another call is after the step. -/
theorem there {other : Thread} {called : Call} {reached : Stage} (different : other ≠ thread)
    (placed : Placed destination events world.store other called reached) :
    Placed destination (events ++
      [.ran thread call operation (some (.ok (operation.run world.store).1))])
      (operation.run world.store).2 other called reached := by
  have started : ∀ call', (Event.ran thread call operation
      (some (.ok (operation.run world.store).1)) : RunEvent Thread) ≠ .started other call' := by
    rintro _ ⟨⟩
  have elsewhere : ∀ (asked : FsOperation) (reply : Except Empty asked.Reply),
      (Event.ran thread call operation (some (.ok (operation.run world.store).1)) :
        RunEvent Thread) ≠ .ran other called asked (some reply) := by
    rintro _ _ ⟨⟩
    exact different rfl
  refine ⟨?_, placed.apart, ?_, ?_, ?_⟩
  · intro plan owns
    obtain before | ⟨_, _, _, ⟨⟩⟩ := owns.of_append
    · exact placed.mine plan before
    · exact (different rfl).elim
  · intro plan same opening
    rw [repliedSince_append started fun _ _ _ => elsewhere _ _,
      repliedSince_append started fun _ _ _ => elsewhere _ _,
      repliedSince_append started fun _ _ _ => elsewhere _ _]
    exact placed.unmade plan same opening
  · intro plan same tree now
    obtain ⟨owns, found⟩ := placed.held plan same tree now
    refine ⟨owns.elsewhere different, ?_⟩
    rw [ran.others different owns]
    exact found
  · exact fun plan same cleared => (placed.cleared plan same cleared).append started

/-- A name that is another run's is not created anew. -/
theorem fresh {other : Thread} {plan another : Plan} {asked : FsOperation}
    {reply : Except Empty asked.Reply}
    (created : Created plan asked reply)
    (now : (Event.ran thread call operation (some (.ok (operation.run world.store).1)) :
      RunEvent Thread) = .ran thread (.generate plan) asked (some reply))
    (owns : Owns events other another) : plan.name ≠ another.name := by
  cases now
  intro same
  obtain rfl := created_inv created
  obtain ⟨_, _, found⟩ := ran.kept.owned other another owns
  rw [← same, (created_absent created).1] at found
  cases found

end Ran

variable [DecidableEq Thread]

/-- A run that is placed was placed before, or is the one that takes the step. -/
theorem Settling.of_update {script : Fs (Except Failure Unit)} {after : Entries} {reached : Stage}
    {other : Thread} {another : Plan}
    (settling : Settling ⟨after, Function.update world.running thread (some (call, script))⟩
      (Function.update stages thread reached) other another) :
    (other ≠ thread ∧ Settling world stages other another) ∨
      other = thread ∧ call = .generate another ∧ reached = .placed := by
  obtain ⟨⟨later, running⟩, placed⟩ := settling
  change Function.update world.running thread _ other = _ at running
  by_cases same : other = thread
  · subst same
    rw [Function.update_self] at running placed
    obtain ⟨rfl, _⟩ := Prod.mk.inj (Option.some.inj running)
    exact .inr ⟨rfl, rfl, placed⟩
  · rw [Function.update_of_ne same] at running placed
    exact .inl ⟨same, ⟨later, running⟩, placed⟩

theorem Settling.of_ended {after : Entries} {other : Thread} {another : Plan}
    (settling : Settling ⟨after, Function.update world.running thread none⟩ stages other another) :
    other ≠ thread ∧ Settling world stages other another := by
  obtain ⟨⟨later, running⟩, placed⟩ := settling
  change Function.update world.running thread _ other = _ at running
  by_cases same : other = thread
  · rw [same, Function.update_self] at running
    cases running
  · rw [Function.update_of_ne same] at running
    exact ⟨same, ⟨later, running⟩, placed⟩

omit [DecidableEq Thread] in
/-- A step that leaves the directory. -/
theorem Kept.idle {event : RunEvent Thread} {reached : Thread → Stage}
    {running : Thread → Option (Call × Fs (Except Failure Unit))}
    (kept : Kept destination events world stages)
    (elsewhere : ∀ other call operation did, event ≠ .ran other call operation did)
    (settling : ∀ other plan, Settling ⟨world.store, running⟩ reached other plan →
      Settling world stages other plan)
    (answers : ∀ other plan, event = .returned other (.generate plan) (.ok (.ok ())) →
      Settling world stages other plan)
    (ends : ∀ other plan, Settles event → ¬ Settling ⟨world.store, running⟩ reached other plan)
    (reports : ∀ other plan failure,
      event = .returned other (.generate plan) (.ok (.error failure)) →
      ¬ RepliedSince (Created plan) events other (.generate plan) ∨
        RepliedSince (Removed plan) events other (.generate plan) ∨
        Failure.Reports destination plan failure)
    (places : Places (Placed destination (events ++ [event]) world.store) ⟨world.store, running⟩
      reached) :
    Kept destination (events ++ [event]) ⟨world.store, running⟩ reached where
  places := places
  owned other plan owns := by
    obtain before | ⟨_, _, _, rfl⟩ := owns.of_append
    · exact kept.owned other plan before
    · exact (elsewhere _ _ _ _ rfl).elim
  alone one other plan another first second := by
    obtain first | ⟨_, _, _, rfl⟩ := first.of_append
    · obtain second | ⟨_, _, _, rfl⟩ := second.of_append
      · exact kept.alone one other plan another first second
      · exact (elsewhere _ _ _ _ rfl).elim
    · exact (elsewhere _ _ _ _ rfl).elim
  settled other plan landed := by
    obtain now | member := landed
    · exact kept.settled other plan (.inl (settling other plan now))
    · obtain before | last := List.mem_append.mp member
      · exact kept.settled other plan (.inr before)
      · exact kept.settled other plan
          (.inl (answers other plan (List.mem_singleton.mp last).symm))
  single one other plan another first second :=
    kept.single one other plan another (settling _ _ first) (settling _ _ second)
  unanswered other plan now later member := by
    obtain before | last := List.mem_append.mp member
    · exact kept.unanswered other plan (settling _ _ now) later before
    · rw [List.mem_singleton.mp last]
      exact fun settles => ends other plan settles now
  once := by
    refine List.pairwise_append.mpr ⟨kept.once, List.pairwise_singleton .., ?_⟩
    intro earlier member later last settles again
    rw [List.mem_singleton.mp last] at again
    obtain ⟨other, plan, rfl⟩ := again
    exact kept.unanswered other plan (answers other plan rfl) earlier member settles
  reported front other plan failure begins := by
    obtain whole | before := List.prefix_concat_iff.mp begins
    · obtain ⟨rfl, last⟩ := List.append_inj' whole rfl
      exact reports other plan failure (List.singleton_inj.mp last).symm
    · exact kept.reported front other plan failure before

/-- **Every run whose steps keep the names apart keeps it.** -/
theorem kept_keeps (start : Entries) : (staging destination start).Keeps
    (fun (_ : List (RunEvent Thread) × RunWorld Thread) event => NamesApart destination event)
    (Kept destination) where
  started := by
    intro events before stages thread call kept idle apart
    apply kept.idle
    · rintro _ _ _ _ ⟨⟩
    · intro other plan settling
      obtain ⟨_, before⟩ | ⟨_, _, ⟨⟩⟩ := settling.of_update
      exact before
    · rintro _ _ ⟨⟩
    · rintro _ _ ⟨_, _, ⟨⟩⟩
    · rintro _ _ _ ⟨⟩
    · refine kept.places.update ⟨?_, ?_, ?_, ?_, ?_⟩ ?_
      · intro plan owns
        exact (not_repliedSince_started owns.created).elim
      · rintro plan rfl
        exact apart thread plan rfl
      · intro plan _ _
        exact ⟨not_repliedSince_started, not_repliedSince_started, not_repliedSince_started⟩
      · rintro plan _ tree ⟨⟩
      · rintro plan _ ⟨⟩
      · intro other called reached different placed
        apply placed.later
        · rintro _ ⟨⟩
          exact different rfl
        · rintro _ _ _ ⟨⟩
        · exact fun _ _ _ there => there
  ran := by
    intro events before stages thread call operation next' did told after kept _ at' performs _
      allowed
    obtain ⟨rfl, rfl, rfl⟩ := performed performs
    have ran : Ran destination events before stages thread call operation :=
      ⟨kept, kept.places _ _ _ at', allowed⟩
    have settling : ∀ {other plan}, Settling ⟨(operation.run before.store).2,
        Function.update before.running thread (some (call, next' (.ok (operation.run before.store).1)))⟩
        (Function.update stages thread ((staging destination start).next call (stages thread) operation
          (.ok (operation.run before.store).1))) other plan →
        (other ≠ thread ∧ Settling before stages other plan) ∨
          other = thread ∧ ¬ Occupied (before.store destination.name) ∧
            (operation.run before.store).2 destination.name = some (.directory plan.staged) := by
      intro other plan settling
      obtain before' | ⟨same, called, placed⟩ := settling.of_update
      · exact .inl before'
      · exact .inr ⟨same, ran.moves called placed⟩
    have occupied : ∀ {other plan}, Settling before stages other plan →
        Occupied (before.store destination.name) := by
      intro other plan before'
      rw [kept.settled other plan (.inl before')]
      exact staged_occupied plan
    refine {
      places := kept.places.update ?_ ?_
      owned := ?_
      alone := ?_
      settled := ?_
      single := ?_
      unanswered := ?_
      once := ?_
      reported := ?_ }
    · exact ran.here
    · exact fun other called reached different placed => ran.there different placed
    · intro other plan owns
      by_cases same : other = thread
      · subst same
        exact ran.own owns
      · obtain before' | ⟨_, _, _, ⟨⟩⟩ := owns.of_append
        · obtain ⟨apart, tree, found⟩ := kept.owned other plan before'
          exact ⟨apart, tree, (ran.others same before').trans found⟩
        · exact (same rfl).elim
    · intro one other plan another first second same
      obtain first | ⟨_, _, created, now⟩ := first.of_append
      · obtain second | ⟨_, _, created, now⟩ := second.of_append
        · exact kept.alone one other plan another first second same
        · obtain ⟨rfl, _⟩ := Event.ran.inj now
          exact (ran.fresh created now first same.symm).elim
      · obtain ⟨rfl, _⟩ := Event.ran.inj now
        obtain second | ⟨_, _, _, now'⟩ := second.of_append
        · exact (ran.fresh created now second same).elim
        · exact (Event.ran.inj now').1
    · intro other plan landed
      have stays : before.store destination.name = some (.directory plan.staged) →
          (operation.run before.store).2 destination.name = some (.directory plan.staged) := by
        intro found
        rw [ran.destination_stays (by rw [found]; exact staged_occupied plan)]
        exact found
      obtain now | member := landed
      · obtain ⟨_, earlier⟩ | ⟨_, _, moved⟩ := settling now
        · exact stays (kept.settled other plan (.inl earlier))
        · exact moved
      · obtain earlier | last := List.mem_append.mp member
        · exact stays (kept.settled other plan (.inr earlier))
        · cases List.mem_singleton.mp last
    · intro one other plan another first second
      obtain ⟨_, first⟩ | ⟨rfl, free, _⟩ := settling first
      · obtain ⟨_, second⟩ | ⟨_, free, _⟩ := settling second
        · exact kept.single one other plan another first second
        · exact (free (occupied first)).elim
      · obtain ⟨_, second⟩ | ⟨rfl, _⟩ := settling second
        · exact (free (occupied second)).elim
        · rfl
    · intro other plan now event member settles
      obtain earlier | last := List.mem_append.mp member
      · obtain ⟨_, before'⟩ | ⟨_, free, _⟩ := settling now
        · exact kept.unanswered other plan before' event earlier settles
        · obtain ⟨one, another, rfl⟩ := settles
          have found := kept.settled one another (.inr earlier)
          exact free (by rw [found]; exact staged_occupied another)
      · rw [List.mem_singleton.mp last] at settles
        obtain ⟨_, _, ⟨⟩⟩ := settles
    · refine List.pairwise_append.mpr ⟨kept.once, List.pairwise_singleton .., ?_⟩
      rintro _ _ later last _ ⟨_, _, rfl⟩
      cases List.mem_singleton.mp last
    · intro front other plan failure begins
      obtain whole | before' := List.prefix_concat_iff.mp begins
      · obtain ⟨_, last⟩ := List.append_inj' whole rfl
        cases last
      · exact kept.reported front other plan failure before'
  returned := by
    intro events before stages thread call result kept at' _ ended
    have settles : ∀ plan, call = .generate plan → result = .ok (.ok ()) →
        Settling before stages thread plan := by
      rintro plan rfl rfl
      exact ⟨⟨_, at'⟩, ended _ rfl⟩
    apply kept.idle
    · rintro _ _ _ _ ⟨⟩
    · exact fun _ _ settling => settling.of_ended.2
    · rintro _ plan ⟨⟩
      exact settles plan rfl rfl
    · rintro other plan ⟨_, another, ⟨⟩⟩ settling
      obtain ⟨different, settling⟩ := settling.of_ended
      exact different (kept.single _ _ _ _ settling (settles another rfl rfl))
    · rintro _ plan failure ⟨⟩
      have placed := kept.places _ _ _ at'
      obtain opening | cleared | reports := ended _ rfl
      · exact .inl (placed.unmade plan rfl opening).1
      · exact .inr (.inl (placed.cleared plan rfl cleared))
      · exact .inr (.inr reports)
    · refine kept.places.ended fun other called reached _ placed => ?_
      apply placed.later
      · rintro _ ⟨⟩
      · rintro _ _ _ ⟨⟩
      · exact fun _ _ _ there => there
  cancelled := by
    intro events before stages thread call script kept at' _
    apply kept.idle
    · rintro _ _ _ _ ⟨⟩
    · exact fun _ _ settling => settling.of_ended.2
    · rintro _ _ ⟨⟩
    · rintro _ _ ⟨_, _, ⟨⟩⟩
    · rintro _ _ _ ⟨⟩
    · refine kept.places.ended fun other called reached _ placed => ?_
      apply placed.later
      · rintro _ ⟨⟩
      · rintro _ _ _ ⟨⟩
      · exact fun _ _ _ there => there

end Steps

end Renvor.Generate
