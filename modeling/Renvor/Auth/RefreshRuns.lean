import Renvor.Auth.RefreshOutline

/-! # What runs do to committed refresh tokens

Whatever transactions a workload is made of, as long as they keep the tables:
committed rows only evolve, and a token comes only to a family without a
tombstone (`Renvor.RefreshTables.KeepsTables.step_committed`).
-/

namespace Renvor

open Foundation
open Foundation.Interleaving (Event World Workload)

namespace RefreshTables

variable {Session : Type} {tables after : RefreshTables Session} {session : Session}

/-- What a step does to the committed rows: they evolve, and a token comes only
to a family without a tombstone. -/
structure Committed (before after : RefreshTables Session) : Prop where
  families : ∀ row ∈ before.families.committed, ∃ later ∈ after.families.committed,
    row.Evolves later
  tokens : ∀ row ∈ before.tokens.committed, ∃ later ∈ after.tokens.committed, row.Evolves later
  origin : ∀ later ∈ after.tokens.committed, (∃ row ∈ before.tokens.committed, row.Evolves later) ∨
    ∀ family ∈ before.families.committed, family.id = later.familyId → family.revokedAt = none

/-- A step that commits neither families nor tokens keeps what is committed. -/
theorem Committed.of_same (families : after.families.committed = tables.families.committed)
    (tokens : after.tokens.committed = tables.tokens.committed) : Committed tables after where
  families row member := ⟨row, families ▸ member, .refl row⟩
  tokens row member := ⟨row, tokens ▸ member, .refl row⟩
  origin later member := .inl ⟨later, tokens ▸ member, .refl later⟩

variable [DecidableEq Session]

/-- A commit lets families and tokens evolve, and takes none away. -/
theorem Sound.committed (sound : tables.Sound) : Committed tables (tables.commit session) where
  families row member := by
    rw [RefreshTables.commit, LockedTable.committed_commit]
    exact sound.families_evolve _ member
  tokens row member := by
    rw [RefreshTables.commit, LockedTable.committed_commit]
    exact sound.tokens_evolve member
  origin later member := by
    rw [RefreshTables.commit, LockedTable.committed_commit] at member
    refine (sound.tokens_from member).imp_right fun covers family committed same => ?_
    obtain ⟨slot, ⟨inside, _⟩, row, held, named, unset⟩ := covers
    obtain ⟨slot', within, base⟩ := LockedTable.mem_committed.mp committed
    obtain rfl := sound.familyIds.same inside within (Slot.mem_versions.mpr (.inr ⟨_, held⟩))
      (Slot.mem_versions.mpr (.inl base)) (named.trans same.symm)
    exact unset family base

/-! ## Runs -/

/-- The workload runs the store's statements, and its transactions keep the
invariant. -/
structure KeepsTables {Call Error Answer : Type}
    (workload : Workload Session (RefreshTables Session) RefreshSql RefreshSql.Reply Call Error
      Answer) : Prop where
  engine : workload.toEngine = refreshEngine Session
  sound : ∀ world, workload.system.Reachable world → Sound world.store

namespace KeepsTables

variable {Call Error Answer : Type} {workload : Workload Session (RefreshTables Session) RefreshSql
    RefreshSql.Reply Call Error Answer}
  {first last : World Session (RefreshTables Session) RefreshSql RefreshSql.Reply Call Error Answer}
  {event : Event Session Call Error Answer} {events : List (Event Session Call Error Answer)}

/-- A step leaves the committed rows, or commits what its session sees when its
transaction is done. -/
theorem committed_cases (keeps : KeepsTables workload)
    (step : workload.Step first event last) :
    (last.store.families.committed = first.store.families.committed ∧
      last.store.tokens.committed = first.store.tokens.committed) ∨
    (∃ call answer, first.running event.session = some (call, .done answer)) ∧
      last.store = first.store.commit event.session := by
  have run_eq : workload.run = RefreshTables.run := congrArg Interleaving.Engine.run keeps.engine
  have commit_eq : workload.commit = RefreshTables.commit :=
    congrArg Interleaving.Engine.commit keeps.engine
  have discard_eq : workload.discard = RefreshTables.discard :=
    congrArg Interleaving.Engine.discard keeps.engine
  obtain same | ⟨session, statement, reply, runs⟩ | ⟨done, commits⟩ | discards := step.store_cases
  · rw [same]
    exact .inl ⟨rfl, rfl⟩
  · rw [run_eq] at runs
    have leaves := run_leaves statement runs
    exact .inl ⟨leaves.families, leaves.tokens⟩
  · rw [commit_eq] at commits
    exact .inr ⟨done, commits⟩
  · rw [discard_eq] at discards
    rw [discards]
    exact .inl ⟨LockedTable.committed_discard, LockedTable.committed_discard⟩

/-- What is committed stays, or evolves, over each step that the parties take. -/
theorem step_committed (keeps : KeepsTables workload) (reachable : workload.system.Reachable first)
    (step : workload.Step first event last) : Committed first.store last.store := by
  obtain ⟨families, tokens⟩ | ⟨_, commits⟩ := keeps.committed_cases step
  · exact .of_same families tokens
  · rw [commits]
    exact (keeps.sound first reachable).committed

/-- Over a run every committed family stays and evolves, by induction on the steps. -/
theorem families_run (keeps : KeepsTables workload) (reachable : workload.system.Reachable first)
    (run : workload.system.Run first events last) {row : FamilyRow}
    (member : row ∈ first.store.families.committed) :
    ∃ later ∈ last.store.families.committed, row.Evolves later := by
  induction run with
  | refl => exact ⟨row, member, .refl row⟩
  | snoc previous step ih =>
      obtain ⟨middle, inside, evolves⟩ := ih
      obtain ⟨later, committed, again⟩ :=
        (keeps.step_committed (reachable.run previous) step).families middle inside
      exact ⟨later, committed, evolves.trans again⟩

/-- Over a run every committed token stays and evolves, by induction on the steps. -/
theorem tokens_run (keeps : KeepsTables workload) (reachable : workload.system.Reachable first)
    (run : workload.system.Run first events last) {row : TokenRow}
    (member : row ∈ first.store.tokens.committed) :
    ∃ later ∈ last.store.tokens.committed, row.Evolves later := by
  induction run with
  | refl => exact ⟨row, member, .refl row⟩
  | snoc previous step ih =>
      obtain ⟨middle, inside, evolves⟩ := ih
      obtain ⟨later, committed, again⟩ :=
        (keeps.step_committed (reachable.run previous) step).tokens middle inside
      exact ⟨later, committed, evolves.trans again⟩

end KeepsTables

end RefreshTables

end Renvor
