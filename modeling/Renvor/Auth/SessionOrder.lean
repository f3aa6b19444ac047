import Mathlib.Logic.Relation
import Renvor.Auth.SessionBound

/-! # Replacements come after what they replace

Rows are only ever appended, so a session that a chain of rotations obtains from
another comes after it (`Renvor.SessionService.rotated_anew`).
-/

namespace Renvor

open Foundation
open Foundation.Concurrent (Event Staging)

variable {Thread : Type}

/-- The digests of the sessions, in the order they were stored in. -/
def SessionRow.digests (rows : List SessionRow) : List SecretDigest := rows.map SessionRow.tokenHash

/-- One session was stored before another. -/
def SessionRow.Earlier (rows : List SessionRow) (old new : SecretDigest) : Prop :=
  old ∈ digests rows ∧ new ∈ digests rows ∧ (digests rows).idxOf old < (digests rows).idxOf new

theorem SessionRow.Earlier.trans {rows : List SessionRow} {first second third : SecretDigest}
    (earlier : SessionRow.Earlier rows first second) (later : SessionRow.Earlier rows second third) :
    SessionRow.Earlier rows first third :=
  ⟨earlier.1, later.2.1, earlier.2.2.trans later.2.2⟩

/-- A statement keeps the digests and appends the inserted one. -/
theorem SessionSql.run_digests (statement : SessionSql) (rows : List SessionRow) :
    SessionRow.digests (run statement rows).2 = SessionRow.digests rows ++
      (inserted statement (run statement rows).1).toList.map SessionRow.tokenHash := by
  unfold SessionRow.digests
  rw [run_rows, List.map_append, List.map_map]
  congr 1
  exact List.map_congr_left fun row _ => (change_evolves statement row).tokenHash

theorem SessionRow.Earlier.run {rows : List SessionRow} {old new : SecretDigest}
    (earlier : SessionRow.Earlier rows old new) (statement : SessionSql) :
    SessionRow.Earlier (SessionSql.run statement rows).2 old new := by
  unfold SessionRow.Earlier
  rw [SessionSql.run_digests, List.idxOf_append_of_mem earlier.1,
    List.idxOf_append_of_mem earlier.2.1]
  exact ⟨List.mem_append_left _ earlier.1, List.mem_append_left _ earlier.2.1, earlier.2.2⟩

namespace SessionService

/-- Rotations store what comes after the session they replace. -/
structure Ordered (service : SessionService) (events : List (SessionEvent Thread))
    (world : SessionWorld Thread) (stages : Thread → SessionStage) : Prop where
  single : service.Single events world stages
  earlier : ∀ event ∈ events, ∀ old new, service.Replaced old new event →
    SessionRow.Earlier world.store old new

variable {service : SessionService}

theorem Ordered.idle {events : List (SessionEvent Thread)} {world after : SessionWorld Thread}
    {stages reached : Thread → SessionStage} {event : SessionEvent Thread}
    (ordered : service.Ordered events world stages)
    (none : ∀ old new, ¬ service.Replaced old new event) (same : after.store = world.store)
    (single : service.Single (events ++ [event]) after reached) :
    service.Ordered (events ++ [event]) after reached where
  single := single
  earlier := by
    intro later member old new replaced
    rw [same]
    obtain before | last := List.mem_append.mp member
    · exact ordered.earlier later before old new replaced
    · rw [List.mem_singleton.mp last] at replaced
      exact (none old new replaced).elim

variable [DecidableEq Thread]

/-- **Every run keeps it.** -/
theorem ordered_keeps (guard : List (SessionEvent Thread) × SessionWorld Thread →
    SessionEvent Thread → Prop) : service.staging.Keeps guard service.Ordered where
  started := by
    intro events before stages thread call ordered idle meets
    refine ordered.idle ?_ rfl ((single_keeps guard).started ordered.single idle meets)
    rintro _ _ ⟨_, _, _, _, _, ⟨⟩, _⟩
  ran := by
    intro events before stages thread call statement next did told after ordered conforming at'
      performs meets allowed
    refine ⟨(single_keeps guard).ran ordered.single conforming at' performs meets allowed, ?_⟩
    intro event member old new replaced
    obtain before' | last := List.mem_append.mp member
    · have earlier := ordered.earlier event before' old new replaced
      obtain ⟨_, _, rfl⟩ | ⟨_, _, rfl⟩ := performed performs
      · exact earlier
      · exact earlier.run statement
    · obtain rfl := List.mem_singleton.mp last
      obtain ⟨_, presented, now, draws, row, ⟨⟩, known, rfl⟩ := replaced
      obtain ⟨_, ⟨⟩, _⟩ | ⟨works, _, rfl⟩ := performed performs
      obtain ⟨user, reached, _⟩ := allows_insert allowed
      obtain ⟨owner, among, same, _⟩ :=
        (ordered.single.kept.places _ _ _ at').owner _ _ _ rfl old user known (.inr reached)
      have stored : old ∈ SessionRow.digests before.store := List.mem_map.mpr ⟨owner, among, same⟩
      obtain ⟨_, left, absent⟩ | ⟨failed, _⟩ := SessionSql.insert_cases row before.store
      · have fresh : row.tokenHash ∉ SessionRow.digests before.store := by
          intro member
          obtain ⟨other, among, same⟩ := List.mem_map.mp member
          exact absent other among same
        unfold SessionRow.Earlier
        rw [left]
        show old ∈ SessionRow.digests (before.store ++ [row]) ∧ _
        have digests : SessionRow.digests (before.store ++ [row]) =
            SessionRow.digests before.store ++ [row.tokenHash] := List.map_append
        rw [digests, List.idxOf_append_of_mem stored, List.idxOf_append_of_notMem fresh]
        refine ⟨List.mem_append_left _ stored, List.mem_append_right _ (List.mem_singleton_self _), ?_⟩
        exact Nat.lt_add_right _ (List.idxOf_lt_length_of_mem stored)
      · cases failed.symm.trans (Option.some.inj works).symm
  returned := by
    intro events before stages thread call result ordered at' meets ends
    refine ordered.idle ?_ rfl ((single_keeps guard).returned ordered.single at' meets ends)
    rintro _ _ ⟨_, _, _, _, _, ⟨⟩, _⟩
  cancelled := by
    intro events before stages thread call script ordered at' meets
    refine ordered.idle ?_ rfl ((single_keeps guard).cancelled ordered.single at' meets)
    rintro _ _ ⟨_, _, _, _, _, ⟨⟩, _⟩

/-- **What comes of a rotated session is another session**, and the rotated one is
over. -/
theorem rotated_anew {first last : SessionWorld Thread} {events : List (SessionEvent Thread)}
    (initial : service.calls.system.Initial first)
    (run : service.calls.system.Run first events last) {old new : SecretDigest}
    (rotated : Relation.TransGen
      (fun old new => ∃ event ∈ events, service.Replaced old new event) old new) :
    old ≠ new ∧ SessionRow.Revoked last.store old := by
  obtain rfl : first = ⟨[], fun _ => none⟩ := initial
  have free : (service.calls.system.restrict fun _ _ => True).Run _ events last :=
    run.restrict_labels fun _ _ _ => trivial
  have initial : service.Ordered [] ⟨[], fun _ : Thread => none⟩ fun _ => .opening :=
    ⟨single_initial, by rintro _ ⟨⟩⟩
  have conforming := service.staging.conforming_initial fun _ : Thread => SessionStage.opening
  obtain ⟨_, _, ordered⟩ := (ordered_keeps _).run (free.recorded []) conforming initial
  have earlier : SessionRow.Earlier last.store old new := by
    induction rotated with
    | single rotated =>
        obtain ⟨event, member, replaced⟩ := rotated
        exact ordered.earlier event member _ _ replaced
    | tail _ rotated ih =>
        obtain ⟨event, member, replaced⟩ := rotated
        exact ih.trans (ordered.earlier event member _ _ replaced)
  constructor
  · rintro rfl
    exact Nat.lt_irrefl _ earlier.2.2
  · obtain ⟨between, ⟨event, member, replaced⟩, _⟩ := Relation.TransGen.head'_iff.mp rotated
    exact ordered.single.ended event member old between replaced

end SessionService

end Renvor
