import Mathlib.Data.List.Basic
import Mathlib.Data.List.Pairwise
import Mathlib.Data.Set.Image

/-! # Tables with row locks

Sessions work on one table at once. A session that changes a row locks it and
leaves its own version beside the committed one. Others read the committed
version and cannot lock the row until the session commits or discards its work.
A statement waits while a row it takes is locked by another session.
-/

namespace Foundation

/-- A row of the table: what is committed of it, nothing while its insertion is
not, and the session that holds its lock with the version it will leave. -/
structure Slot (Session Row : Type*) where
  committed : Option Row
  held : Option (Session × Row)

namespace Slot

variable {Session Row : Type*}

/-- The session holds the row's lock. -/
def HeldBy (session : Session) (slot : Slot Session Row) : Prop :=
  ∃ row, slot.held = some (session, row)

/-- Every version of the row. -/
def versions (slot : Slot Session Row) : List Row :=
  slot.committed.toList ++ (slot.held.map Prod.snd).toList

/-- The held version comes from the committed one by a permitted change. -/
def Grows (permitted : Row → Row → Prop) (slot : Slot Session Row) : Prop :=
  ∀ before, slot.committed = some before → ∀ holder after,
    slot.held = some (holder, after) → permitted before after

/-- Whatever versions are looked at, the two rows differ in the key. -/
def Apart {Key : Type*} (key : Row → Key) (left right : Slot Session Row) : Prop :=
  ∀ first ∈ left.versions, ∀ second ∈ right.versions, key first ≠ key second

instance {Key : Type*} (key : Row → Key) : Std.Symm (@Apart Session Row Key key) where
  symm _ _ apart first left second right same := apart second right first left same.symm

section Holding

variable {session other : Session} {slot : Slot Session Row} {row : Row}

/-- Only one session holds a row. -/
theorem HeldBy.same (held : slot.HeldBy session) (again : slot.HeldBy other) :
    session = other := by
  obtain ⟨_, held⟩ := held
  obtain ⟨_, again⟩ := again
  exact (Prod.mk.inj (Option.some.inj (held.symm.trans again))).1

theorem mem_versions :
    row ∈ slot.versions ↔ slot.committed = some row ∨ ∃ holder, slot.held = some (holder, row) := by
  simp [versions]

theorem not_heldBy_of_free (committed : Option Row) :
    ¬ (⟨committed, none⟩ : Slot Session Row).HeldBy session := fun ⟨_, held⟩ => by cases held

end Holding

variable [DecidableEq Session]

/-- The version a session sees. -/
def view (session : Session) (slot : Slot Session Row) : Option Row :=
  match slot.held with
  | some (holder, row) => if holder = session then some row else slot.committed
  | none => slot.committed

/-- Another session holds the row's lock. -/
def lockedFor (session : Session) (slot : Slot Session Row) : Bool :=
  slot.held.any fun held => held.1 ≠ session

/-- The version the session sees meets the condition. -/
def meets (session : Session) (condition : Row → Bool) (slot : Slot Session Row) : Bool :=
  (slot.view session).any condition

/-- Locks the row and changes it, where the session sees it meet the condition. -/
def take (session : Session) (condition : Row → Bool) (change : Row → Row)
    (slot : Slot Session Row) : Slot Session Row :=
  match slot.view session with
  | some row =>
      if condition row = true then { slot with held := some (session, change row) } else slot
  | none => slot

/-- Commits the session's version and gives the lock back. -/
def commit (session : Session) (slot : Slot Session Row) : Slot Session Row :=
  match slot.held with
  | some (holder, row) => if holder = session then ⟨some row, none⟩ else slot
  | none => slot

/-- Loses the session's version and gives the lock back. -/
def discard (session : Session) (slot : Slot Session Row) : Slot Session Row :=
  match slot.held with
  | some (holder, _) => if holder = session then ⟨slot.committed, none⟩ else slot
  | none => slot

variable {session other : Session} {slot : Slot Session Row} {condition : Row → Bool}
  {change : Row → Row} {row : Row}

theorem view_held (held : slot.held = some (session, row)) : slot.view session = some row := by
  simp [view, held]

theorem view_free (free : ¬ slot.HeldBy session) : slot.view session = slot.committed := by
  rw [view]
  split
  · next holder row held => exact if_neg fun (same : holder = session) => free ⟨row, same ▸ held⟩
  · rfl

theorem HeldBy.locked (held : slot.HeldBy other) (different : other ≠ session) :
    slot.lockedFor session = true := by
  obtain ⟨row, held⟩ := held
  simp [lockedFor, held, different]

/-- What a session sees is one of the versions. -/
theorem view_mem_versions (seen : slot.view session = some row) : row ∈ slot.versions := by
  by_cases held : slot.HeldBy session
  · obtain ⟨version, held⟩ := held
    rw [view_held held] at seen
    exact mem_versions.mpr (.inr ⟨session, Option.some.inj seen ▸ held⟩)
  · rw [view_free held] at seen
    exact mem_versions.mpr (.inl seen)

theorem meets_iff : slot.meets session condition = true ↔
    ∃ row, slot.view session = some row ∧ condition row = true := by
  rw [meets, Option.any_eq_true]

theorem take_of_view (seen : slot.view session = some row) (meets : condition row = true) :
    slot.take session condition change = { slot with held := some (session, change row) } := by
  rw [take, seen]
  exact if_pos meets

theorem take_of_not_meets (unmet : ¬ slot.meets session condition = true) :
    slot.take session condition change = slot := by
  rw [take]
  split
  · next row seen => exact if_neg fun meets => unmet (meets_iff.mpr ⟨row, seen, meets⟩)
  · rfl

@[simp] theorem take_committed :
    (slot.take session condition change).committed = slot.committed := by
  rw [take]
  split
  · split <;> rfl
  · rfl

theorem take_heldBy : (slot.take session condition change).HeldBy session ↔
    slot.meets session condition = true ∨ slot.HeldBy session := by
  by_cases meets : slot.meets session condition = true
  · obtain ⟨row, seen, holds⟩ := meets_iff.mp meets
    rw [take_of_view seen holds]
    exact ⟨fun _ => .inl meets, fun _ => ⟨_, rfl⟩⟩
  · rw [take_of_not_meets meets]
    exact ⟨.inr, fun either => either.resolve_left meets⟩

/-- A version after a statement was there before or is a changed one. -/
theorem mem_versions_take (member : row ∈ (slot.take session condition change).versions) :
    row ∈ slot.versions ∨
      ∃ before, slot.view session = some before ∧ condition before = true ∧ row = change before := by
  by_cases meets : slot.meets session condition = true
  · obtain ⟨before, seen, holds⟩ := meets_iff.mp meets
    rw [take_of_view seen holds] at member
    obtain committed | ⟨holder, held⟩ := mem_versions.mp member
    · exact .inl (mem_versions.mpr (.inl committed))
    · exact .inr ⟨before, seen, holds, (Prod.mk.inj (Option.some.inj held)).2.symm⟩
  · rw [take_of_not_meets meets] at member
    exact .inl member

theorem commit_held (held : slot.held = some (session, row)) :
    slot.commit session = ⟨some row, none⟩ := by
  simp [commit, held]

theorem commit_free (free : ¬ slot.HeldBy session) : slot.commit session = slot := by
  rw [commit]
  split
  · next holder row held => exact if_neg fun (same : holder = session) => free ⟨row, same ▸ held⟩
  · rfl

/-- **Committing makes what the session sees what is committed.** -/
@[simp] theorem commit_committed : (slot.commit session).committed = slot.view session := by
  by_cases held : slot.HeldBy session
  · obtain ⟨row, held⟩ := held
    rw [commit_held held, view_held held]
  · rw [commit_free held, view_free held]

theorem discard_held (held : slot.HeldBy session) :
    slot.discard session = ⟨slot.committed, none⟩ := by
  obtain ⟨row, held⟩ := held
  simp [discard, held]

theorem discard_free (free : ¬ slot.HeldBy session) : slot.discard session = slot := by
  rw [discard]
  split
  · next holder row held => exact if_neg fun (same : holder = session) => free ⟨row, same ▸ held⟩
  · rfl

@[simp] theorem discard_committed : (slot.discard session).committed = slot.committed := by
  by_cases held : slot.HeldBy session
  · rw [discard_held held]
  · rw [discard_free held]

theorem mem_versions_commit (member : row ∈ (slot.commit session).versions) :
    row ∈ slot.versions := by
  by_cases held : slot.HeldBy session
  · obtain ⟨version, held⟩ := held
    rw [commit_held held] at member
    obtain committed | ⟨_, held⟩ := mem_versions.mp member
    · exact mem_versions.mpr (.inr ⟨session, Option.some.inj committed ▸ held⟩)
    · cases held
  · rwa [commit_free held] at member

theorem mem_versions_discard (member : row ∈ (slot.discard session).versions) :
    row ∈ slot.versions := by
  by_cases held : slot.HeldBy session
  · rw [discard_held held] at member
    obtain committed | ⟨_, held⟩ := mem_versions.mp member
    · exact mem_versions.mpr (.inl committed)
    · cases held
  · rwa [discard_free held] at member

end Slot

/-- The rows of a table. -/
abbrev LockedTable (Session Row : Type*) := List (Slot Session Row)

namespace LockedTable

variable {Session Row Key : Type*}

/-- The committed rows. -/
def committed (table : LockedTable Session Row) : List Row := table.filterMap Slot.committed

/-- Adds a row. Where a version of another row clashes with it, the statement
waits or is refused. -/
def insert (session : Session) (clashes : Row → Bool) (row : Row)
    (table : LockedTable Session Row) : Option (LockedTable Session Row) :=
  if table.any (fun slot => slot.versions.any clashes) = true then none
  else some (⟨none, some (session, row)⟩ :: table)

/-- The rows a session holds. -/
def mine (session : Session) (table : LockedTable Session Row) : Set (Slot Session Row) :=
  {slot | slot ∈ table ∧ slot.HeldBy session}

/-- Different rows differ in the key, whatever version is looked at. -/
def Keyed (key : Row → Key) (table : LockedTable Session Row) : Prop :=
  table.Pairwise (Slot.Apart key)

/-- Every held version comes from the committed one by a permitted change. -/
def Grown (permitted : Row → Row → Prop) (table : LockedTable Session Row) : Prop :=
  ∀ slot ∈ table, slot.Grows permitted

section Rows

variable {session other : Session} {table after : LockedTable Session Row} {row : Row}
  {key : Row → Key} {permitted : Row → Row → Prop}

theorem mem_committed :
    row ∈ table.committed ↔ ∃ slot ∈ table, slot.committed = some row := List.mem_filterMap

/-- The committed row of a slot the session holds. -/
theorem mem_committed_of_mine {slot : Slot Session Row} (held : slot ∈ table.mine session)
    (base : slot.committed = some row) : row ∈ table.committed :=
  mem_committed.mpr ⟨slot, held.1, base⟩

/-- A change of the slots that leaves those of a session as they are, and gives
it no other, leaves what it holds. -/
private theorem mine_map {apply : Slot Session Row → Slot Session Row}
    (keeps : ∀ slot ∈ table, slot.HeldBy session → apply slot = slot)
    (gives : ∀ slot ∈ table, (apply slot).HeldBy session → slot.HeldBy session) :
    mine session (table.map apply) = mine session table := by
  ext slot
  simp only [mine, List.mem_map, Set.mem_ofPred_eq]
  constructor
  · rintro ⟨⟨before, member, rfl⟩, held⟩
    have owned := gives before member held
    rw [keeps before member owned]
    exact ⟨member, owned⟩
  · rintro ⟨member, held⟩
    exact ⟨⟨slot, member, keeps slot member held⟩, held⟩

/-- Versions with one key are versions of one row. -/
theorem Keyed.same (keyed : Keyed key table) {left right : Slot Session Row} {first second : Row}
    (one : left ∈ table) (two : right ∈ table) (among : first ∈ left.versions)
    (others : second ∈ right.versions) (same : key first = key second) : left = right := by
  by_contra different
  exact keyed.forall one two different first among second others same

/-- Committed rows with one key are one row. -/
theorem Keyed.committed_same (keyed : Keyed key table) {first second : Row}
    (one : first ∈ table.committed) (two : second ∈ table.committed)
    (same : key first = key second) : first = second := by
  obtain ⟨left, among, base⟩ := mem_committed.mp one
  obtain ⟨right, others, again⟩ := mem_committed.mp two
  obtain rfl := keyed.same among others (Slot.mem_versions.mpr (.inl base))
    (Slot.mem_versions.mpr (.inl again)) same
  exact Option.some.inj (base.symm.trans again)

/-- If the rows that meet a condition all have one key, there is at most one. -/
theorem Keyed.countP_le_one (keyed : Keyed key table) {condition : Row → Bool}
    (one : ∀ first ∈ table.committed, ∀ second ∈ table.committed, condition first = true →
      condition second = true → key first = key second) :
    table.committed.countP condition ≤ 1 := by
  have apart : table.committed.Pairwise fun first second => key first ≠ key second :=
    List.Pairwise.filterMap Slot.committed (fun _ _ apart first base second again =>
      apart first (Slot.mem_versions.mpr (.inl base)) second (Slot.mem_versions.mpr (.inl again)))
      keyed
  rw [List.countP_eq_length_filter]
  have filtered := apart.filter condition
  cases found : table.committed.filter condition with
  | nil => exact Nat.zero_le 1
  | cons first rest =>
      cases rest with
      | nil => exact le_rfl
      | cons second rest =>
          rw [found] at filtered
          have first' : first ∈ table.committed.filter condition := found ▸ List.mem_cons_self
          have second' : second ∈ table.committed.filter condition :=
            found ▸ List.mem_cons_of_mem _ List.mem_cons_self
          obtain ⟨inside, meets⟩ := List.mem_filter.mp first'
          obtain ⟨within, again⟩ := List.mem_filter.mp second'
          exact ((List.pairwise_cons.mp filtered).1 second List.mem_cons_self
            (one first inside second within meets again)).elim

/-- A change of the slots that brings no new key keeps them apart. -/
theorem Keyed.map {apply : Slot Session Row → Slot Session Row} (keyed : Keyed key table)
    (old : ∀ slot, ∀ row ∈ (apply slot).versions, ∃ before ∈ slot.versions, key before = key row) :
    Keyed key (table.map apply) := by
  refine List.pairwise_map.mpr (keyed.imp fun {left right} apart => ?_)
  intro first among second others same
  obtain ⟨before, member, eq⟩ := old left first among
  obtain ⟨earlier, inside, again⟩ := old right second others
  exact apart before member earlier inside (eq.trans (same.trans again.symm))

theorem Grown.cons (grown : Grown permitted table) :
    Grown permitted (⟨none, some (session, row)⟩ :: table) := by
  intro slot member
  obtain rfl | member := List.mem_cons.mp member
  · rintro base ⟨⟩
  · exact grown slot member

theorem mine_cons : mine session (⟨none, some (session, row)⟩ :: table) =
    Insert.insert ⟨none, some (session, row)⟩ (mine session table) := by
  ext slot
  simp only [mine, List.mem_cons, Set.mem_ofPred_eq, Set.mem_insert_iff]
  constructor
  · rintro ⟨rfl | member, held⟩
    · exact .inl rfl
    · exact .inr ⟨member, held⟩
  · rintro (rfl | ⟨member, held⟩)
    · exact ⟨.inl rfl, ⟨row, rfl⟩⟩
    · exact ⟨.inr member, held⟩

theorem mine_cons_other (different : other ≠ session) :
    mine other (⟨none, some (session, row)⟩ :: table) = mine other table := by
  ext slot
  simp only [mine, List.mem_cons, Set.mem_ofPred_eq]
  constructor
  · rintro ⟨rfl | member, held⟩
    · exact (different (held.same ⟨row, rfl⟩)).elim
    · exact ⟨member, held⟩
  · rintro ⟨member, held⟩
    exact ⟨.inr member, held⟩

theorem insert_some {clashes : Row → Bool}
    (inserted : table.insert session clashes row = some after) :
    after = ⟨none, some (session, row)⟩ :: table := by
  rw [LockedTable.insert] at inserted
  split at inserted
  · cases inserted
  · exact (Option.some.inj inserted).symm

theorem Keyed.insert {clashes : Row → Bool} (keyed : Keyed key table)
    (inserted : table.insert session clashes row = some after)
    (sees : ∀ version, key version = key row → clashes version = true) : Keyed key after := by
  rw [LockedTable.insert] at inserted
  split at inserted
  · cases inserted
  next clear =>
    cases inserted
    refine List.pairwise_cons.mpr ⟨fun slot member first among second others same => ?_, keyed⟩
    obtain ⟨_, ⟨⟩⟩ | ⟨_, held⟩ := Slot.mem_versions.mp among
    cases held
    refine clear (List.any_eq_true.mpr ⟨slot, member, List.any_eq_true.mpr ⟨second, others, ?_⟩⟩)
    exact sees second same.symm

end Rows

variable [DecidableEq Session]

/-- The rows a session sees. -/
def view (session : Session) (table : LockedTable Session Row) : List Row :=
  table.filterMap (Slot.view session)

/-- No row the statement takes is locked by another session. -/
def available (session : Session) (condition : Row → Bool) (table : LockedTable Session Row) :
    Bool :=
  table.all fun slot => !(slot.meets session condition && slot.lockedFor session)

/-- Changes every row that meets the condition and counts them, or waits. -/
def update (session : Session) (condition : Row → Bool) (change : Row → Row)
    (table : LockedTable Session Row) : Option (Nat × LockedTable Session Row) :=
  if table.available session condition = true then
    some (table.countP (Slot.meets session condition),
      table.map (Slot.take session condition change))
  else none

/-- Locks and reads the rows that meet the condition, or waits. -/
def lock (session : Session) (condition : Row → Bool) (table : LockedTable Session Row) :
    Option (List Row × LockedTable Session Row) :=
  if table.available session condition = true then
    some ((table.view session).filter condition, table.map (Slot.take session condition id))
  else none

/-- Commits the session's work. -/
def commit (session : Session) (table : LockedTable Session Row) : LockedTable Session Row :=
  table.map (Slot.commit session)

/-- Loses the session's work. -/
def discard (session : Session) (table : LockedTable Session Row) : LockedTable Session Row :=
  table.map (Slot.discard session)

variable {session other : Session} {table after : LockedTable Session Row}
  {condition : Row → Bool} {change : Row → Row} {row : Row} {slot : Slot Session Row}
  {key : Row → Key} {permitted : Row → Row → Prop}

theorem mem_view :
    row ∈ table.view session ↔ ∃ slot ∈ table, slot.view session = some row := List.mem_filterMap

/-- A session sees a version it holds or a committed row. -/
theorem mem_view_cases (member : row ∈ table.view session) :
    (∃ slot ∈ table.mine session, slot.held = some (session, row)) ∨
      ∃ slot ∈ table, ¬ slot.HeldBy session ∧ slot.committed = some row := by
  obtain ⟨slot, inside, seen⟩ := mem_view.mp member
  by_cases held : slot.HeldBy session
  · obtain ⟨version, holds⟩ := held
    obtain rfl := Option.some.inj ((Slot.view_held holds).symm.trans seen)
    exact .inl ⟨slot, ⟨inside, ⟨_, holds⟩⟩, holds⟩
  · exact .inr ⟨slot, inside, held, (Slot.view_free held).symm.trans seen⟩

/-- A session that has changed nothing sees what is committed. -/
theorem view_eq_committed (untouched : ∀ slot ∈ table.mine session, ∃ row,
    slot = ⟨some row, some (session, row)⟩) : table.view session = table.committed := by
  refine List.filterMap_congr fun slot member => ?_
  by_cases held : slot.HeldBy session
  · obtain ⟨row, rfl⟩ := untouched slot ⟨member, held⟩
    exact Slot.view_held rfl
  · exact Slot.view_free held

/-- Where a condition leaves out the rows a session holds, the session sees what
is committed. -/
theorem filter_view (apart : ∀ slot ∈ table.mine session, ∀ row ∈ slot.versions,
    condition row = false) : (table.view session).filter condition =
      table.committed.filter condition := by
  rw [view, committed, List.filter_filterMap, List.filter_filterMap]
  refine List.filterMap_congr fun slot member => ?_
  by_cases held : slot.HeldBy session
  · have none : ∀ version : Option Row, (∀ row ∈ version, row ∈ slot.versions) →
        version.filter condition = none := by
      intro version among
      cases version with
      | none => rfl
      | some row => simp [Option.filter, apart slot ⟨member, held⟩ row (among row rfl)]
    rw [none _ fun row seen => Slot.view_mem_versions seen,
      none _ fun row base => Slot.mem_versions.mpr (.inl base)]
  · rw [Slot.view_free held]

theorem available_iff : table.available session condition = true ↔
    ∀ slot ∈ table, slot.meets session condition = true → ¬ slot.lockedFor session = true := by
  simp only [available, List.all_eq_true, Bool.not_eq_true', Bool.and_eq_false_imp,
    Bool.not_eq_true]

theorem update_some {affected : Nat}
    (updates : table.update session condition change = some (affected, after)) :
    table.available session condition = true ∧
      after = table.map (Slot.take session condition change) := by
  rw [update] at updates
  split at updates
  · next free => exact ⟨free, (Prod.mk.inj (Option.some.inj updates)).2.symm⟩
  · cases updates

theorem lock_some {rows : List Row} (locks : table.lock session condition = some (rows, after)) :
    table.available session condition = true ∧ rows = (table.view session).filter condition ∧
      after = table.map (Slot.take session condition id) := by
  rw [lock] at locks
  split at locks
  · next free =>
      obtain ⟨same, equal⟩ := Prod.mk.inj (Option.some.inj locks)
      exact ⟨free, same.symm, equal.symm⟩
  · cases locks

/-! ## What a statement changes -/

theorem committed_take :
    committed (table.map (Slot.take session condition change)) = table.committed := by
  simp [committed, List.filterMap_map]

theorem committed_commit : committed (table.commit session) = table.view session := by
  simp [committed, commit, view, List.filterMap_map]

theorem committed_discard : committed (table.discard session) = table.committed := by
  simp [committed, discard, List.filterMap_map]

/-- The rows a session holds after a statement of its own. -/
theorem mine_take : mine session (table.map (Slot.take session condition change)) =
    Slot.take session condition change ''
      {slot | slot ∈ table ∧ (slot.meets session condition = true ∨ slot.HeldBy session)} := by
  ext slot
  simp only [mine, List.mem_map, Set.mem_ofPred_eq, Set.mem_image]
  constructor
  · rintro ⟨⟨before, member, rfl⟩, held⟩
    exact ⟨before, ⟨member, Slot.take_heldBy.mp held⟩, rfl⟩
  · rintro ⟨before, ⟨member, either⟩, rfl⟩
    exact ⟨⟨before, member, rfl⟩, Slot.take_heldBy.mpr either⟩

/-- **A statement leaves the rows others hold.** -/
theorem mine_take_other (different : other ≠ session)
    (free : table.available session condition = true) :
    mine other (table.map (Slot.take session condition change)) = mine other table := by
  refine mine_map (fun slot member held => ?_) (fun slot _ held => ?_)
  · exact Slot.take_of_not_meets fun meets =>
      available_iff.mp free slot member meets (held.locked different)
  · by_cases meets : slot.meets session condition = true
    · exact (different (held.same (Slot.take_heldBy.mpr (.inl meets)))).elim
    · rwa [Slot.take_of_not_meets meets] at held

/-- A session that takes one row has that row. -/
theorem mine_take_one {slot : Slot Session Row} (member : slot ∈ table)
    (taken : slot.meets session condition = true ∨ slot.HeldBy session)
    (only : ∀ other ∈ table, other.meets session condition = true ∨ other.HeldBy session →
      other = slot) :
    mine session (table.map (Slot.take session condition change)) =
      {slot.take session condition change} := by
  have single : {other | other ∈ table ∧ (other.meets session condition = true ∨
      other.HeldBy session)} = {slot} := by
    ext other
    constructor
    · exact fun ⟨inside, either⟩ => only other inside either
    · rintro rfl
      exact ⟨member, taken⟩
  rw [mine_take, single, Set.image_singleton]

theorem mine_commit : mine session (table.commit session) = ∅ := by
  ext slot
  simp only [mine, commit, List.mem_map, Set.mem_ofPred_eq, Set.mem_empty_iff_false, iff_false]
  rintro ⟨⟨before, _, rfl⟩, held⟩
  by_cases owned : before.HeldBy session
  · obtain ⟨row, version⟩ := owned
    rw [Slot.commit_held version] at held
    exact Slot.not_heldBy_of_free _ held
  · exact owned (Slot.commit_free owned ▸ held)

theorem mine_commit_other (different : other ≠ session) :
    mine other (table.commit session) = mine other table := by
  refine mine_map (fun slot _ held => Slot.commit_free fun mine => different (held.same mine))
    (fun slot _ held => ?_)
  by_cases owned : slot.HeldBy session
  · obtain ⟨row, version⟩ := owned
    rw [Slot.commit_held version] at held
    exact (Slot.not_heldBy_of_free _ held).elim
  · rwa [Slot.commit_free owned] at held

theorem mine_discard : mine session (table.discard session) = ∅ := by
  ext slot
  simp only [mine, discard, List.mem_map, Set.mem_ofPred_eq, Set.mem_empty_iff_false, iff_false]
  rintro ⟨⟨before, _, rfl⟩, held⟩
  by_cases owned : before.HeldBy session
  · rw [Slot.discard_held owned] at held
    exact Slot.not_heldBy_of_free _ held
  · exact owned (Slot.discard_free owned ▸ held)

theorem mine_discard_other (different : other ≠ session) :
    mine other (table.discard session) = mine other table := by
  refine mine_map (fun slot _ held => Slot.discard_free fun mine => different (held.same mine))
    (fun slot _ held => ?_)
  by_cases owned : slot.HeldBy session
  · rw [Slot.discard_held owned] at held
    exact (Slot.not_heldBy_of_free _ held).elim
  · rwa [Slot.discard_free owned] at held

/-! ## Keys and growth -/

/-- **Locking by key** reads the committed row and holds it alone. -/
theorem lock_key [DecidableEq Key] (keyed : Keyed key table) (nothing : mine session table = ∅)
    (committed : row ∈ table.committed) {rows : List Row}
    (locks : table.lock session (fun version => decide (key version = key row)) =
      some (rows, after)) :
    rows.head? = some row ∧ mine session after = {⟨some row, some (session, row)⟩} := by
  obtain ⟨-, rfl, rfl⟩ := lock_some locks
  obtain ⟨slot, member, base⟩ := mem_committed.mp committed
  have free : ∀ other ∈ table, ¬ other.HeldBy session := fun other inside held =>
    Set.notMem_empty other (nothing ▸ ⟨inside, held⟩)
  have seen : slot.view session = some row := (Slot.view_free (free slot member)).trans base
  have same : ∀ other ∈ table, ∀ version, other.view session = some version →
      key version = key row → other = slot := fun other inside version sees equal =>
    keyed.same inside member (Slot.view_mem_versions sees) (Slot.view_mem_versions seen) equal
  constructor
  · have among : row ∈ (table.view session).filter fun version => decide (key version = key row) :=
      List.mem_filter.mpr ⟨mem_view.mpr ⟨slot, member, seen⟩, decide_eq_true rfl⟩
    cases found : (table.view session).filter fun version => decide (key version = key row) with
    | nil => rw [found] at among; cases among
    | cons first rest =>
        have head : first ∈ (table.view session).filter fun version =>
            decide (key version = key row) := found ▸ List.mem_cons_self
        obtain ⟨inside, equal⟩ := List.mem_filter.mp head
        obtain ⟨other, within, sees⟩ := mem_view.mp inside
        obtain rfl := same other within first sees (of_decide_eq_true equal)
        rw [List.head?_cons, ← sees, seen]
  · have meets : slot.meets session (fun version => decide (key version = key row)) = true :=
      Slot.meets_iff.mpr ⟨row, seen, decide_eq_true rfl⟩
    rw [mine_take_one member (.inl meets), Slot.take_of_view seen (decide_eq_true rfl), base]
    · rfl
    · rintro other inside (again | held)
      · obtain ⟨version, sees, equal⟩ := Slot.meets_iff.mp again
        exact same other inside version sees (of_decide_eq_true equal)
      · exact (free other inside held).elim

theorem Keyed.take (keyed : Keyed key table) (keeps : ∀ row, key (change row) = key row) :
    Keyed key (table.map (Slot.take session condition change)) := by
  refine keyed.map fun slot row member => ?_
  obtain old | ⟨before, seen, _, rfl⟩ := Slot.mem_versions_take member
  · exact ⟨row, old, rfl⟩
  · exact ⟨before, Slot.view_mem_versions seen, (keeps before).symm⟩

theorem Keyed.commit (keyed : Keyed key table) : Keyed key (table.commit session) :=
  keyed.map fun _ row member => ⟨row, Slot.mem_versions_commit member, rfl⟩

theorem Keyed.discard (keyed : Keyed key table) : Keyed key (table.discard session) :=
  keyed.map fun _ row member => ⟨row, Slot.mem_versions_discard member, rfl⟩

/-- What a session sees of a committed row comes from it by a permitted change. -/
theorem Grown.seen (grown : Grown permitted table) (same : ∀ row, permitted row row)
    (member : slot ∈ table) (base : slot.committed = some row) :
    ∃ version, slot.view session = some version ∧ permitted row version := by
  by_cases held : slot.HeldBy session
  · obtain ⟨version, held⟩ := held
    exact ⟨version, Slot.view_held held, grown slot member row base session version held⟩
  · exact ⟨row, (Slot.view_free held).trans base, same row⟩

theorem Grown.take (grown : Grown permitted table)
    (trans : ∀ {first second third}, permitted first second → permitted second third →
      permitted first third) (same : ∀ row, permitted row row)
    (grows : ∀ row, condition row = true → permitted row (change row)) :
    Grown permitted (table.map (Slot.take session condition change)) := by
  intro slot member
  obtain ⟨before, inside, rfl⟩ := List.mem_map.mp member
  by_cases meets : before.meets session condition = true
  · obtain ⟨row, seen, holds⟩ := Slot.meets_iff.mp meets
    rw [Slot.take_of_view seen holds]
    rintro base committed holder version held
    obtain ⟨rfl, rfl⟩ := Prod.mk.inj (Option.some.inj held)
    obtain ⟨now, again, grew⟩ := grown.seen same inside committed
    obtain rfl := Option.some.inj (seen.symm.trans again)
    exact trans grew (grows row holds)
  · rw [Slot.take_of_not_meets meets]
    exact grown before inside

theorem Grown.commit (grown : Grown permitted table) : Grown permitted (table.commit session) := by
  intro slot member
  obtain ⟨before, inside, rfl⟩ := List.mem_map.mp member
  by_cases held : before.HeldBy session
  · obtain ⟨row, held⟩ := held
    rw [Slot.commit_held held]
    rintro _ _ _ _ ⟨⟩
  · rw [Slot.commit_free held]
    exact grown before inside

theorem Grown.discard (grown : Grown permitted table) :
    Grown permitted (table.discard session) := by
  intro slot member
  obtain ⟨before, inside, rfl⟩ := List.mem_map.mp member
  by_cases held : before.HeldBy session
  · rw [Slot.discard_held held]
    rintro _ _ _ _ ⟨⟩
  · rw [Slot.discard_free held]
    exact grown before inside

end LockedTable

end Foundation
