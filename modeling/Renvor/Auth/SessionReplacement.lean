import Renvor.Auth.SessionRuns

/-! # A session is replaced at most once

A rotation stores a replacement only for a session that it revoked itself, and a
session is revoked only once (`Renvor.SessionService.run_replacements`).
-/

namespace Renvor

open Foundation
open Foundation.Concurrent (Event Staging)

variable {Thread : Type}

namespace SessionService

/-- Sessions are replaced, or being replaced, once and by one rotation each. -/
structure Single (service : SessionService) (events : List (SessionEvent Thread))
    (world : SessionWorld Thread) (stages : Thread → SessionStage) : Prop where
  kept : service.Kept events world stages
  alone : ∀ first second digest, service.Exchanging world stages first digest →
    service.Exchanging world stages second digest → first = second
  revoked : ∀ thread digest, service.Exchanging world stages thread digest →
    SessionRow.Revoked world.store digest
  unreplaced : ∀ thread digest, service.Exchanging world stages thread digest →
    ∀ event ∈ events, ∀ new, ¬ service.Replaced digest new event
  ended : ∀ event ∈ events, ∀ old new, service.Replaced old new event →
    SessionRow.Revoked world.store old
  once : events.Pairwise fun event later =>
    ∀ old new other, service.Replaced old new event → ¬ service.Replaced old other later

variable {service : SessionService} {events : List (SessionEvent Thread)}
  {world : SessionWorld Thread} {stages : Thread → SessionStage} {event : SessionEvent Thread}

/-- A step that replaces nothing. -/
theorem Single.idle {running : Thread → Option (SessionCall × Serving SessionAnswer)}
    {reached : Thread → SessionStage} (single : service.Single events world stages)
    (none : ∀ old new, ¬ service.Replaced old new event)
    (exchanged : ∀ thread digest, service.Exchanging ⟨world.store, running⟩ reached thread digest →
      service.Exchanging world stages thread digest)
    (kept : service.Kept (events ++ [event]) ⟨world.store, running⟩ reached) :
    service.Single (events ++ [event]) ⟨world.store, running⟩ reached where
  kept := kept
  alone first second digest one two :=
    single.alone first second digest (exchanged _ _ one) (exchanged _ _ two)
  revoked thread digest exchanging := single.revoked thread digest (exchanged _ _ exchanging)
  unreplaced := by
    intro thread digest exchanging later member new
    obtain before | same := List.mem_append.mp member
    · exact single.unreplaced thread digest (exchanged _ _ exchanging) later before new
    · rw [List.mem_singleton.mp same]
      exact none digest new
  ended := by
    intro later member old new replaced
    obtain before | same := List.mem_append.mp member
    · exact single.ended later before old new replaced
    · rw [List.mem_singleton.mp same] at replaced
      exact (none old new replaced).elim
  once := by
    refine List.pairwise_append.mpr ⟨single.once, List.pairwise_singleton .., ?_⟩
    intro earlier _ later same old _ other _
    rw [List.mem_singleton.mp same]
    exact none old other

variable [DecidableEq Thread]

/-- **Every run keeps it.** -/
theorem single_keeps (guard : List (SessionEvent Thread) × SessionWorld Thread →
    SessionEvent Thread → Prop) : service.staging.Keeps guard service.Single where
  started := by
    intro events before stages thread call single idle meets
    apply single.idle
    · rintro _ _ ⟨_, _, _, _, _, ⟨⟩, _⟩
    · exact fun _ _ exchanging => exchanging.of_started
    · exact (kept_keeps guard).started single.kept idle meets
  ran := by
    intro events before stages thread call statement next did told after single conforming at'
      performs meets allowed
    obtain ⟨inserted, grows⟩ := performed_grows performs
    have exchanges := fun old new (replaced : service.Replaced old new
      (.ran thread call statement did)) => replaced.exchanging at' allowed
    have keyed := single.kept.keyed
    refine ⟨(kept_keeps guard).ran single.kept conforming at' performs meets allowed, ?_, ?_, ?_, ?_,
      ?_⟩
    · intro first second digest one two
      obtain ⟨_, one⟩ | ⟨⟨one', _⟩, _, _, live⟩ := one.of_ran performs allowed
      · obtain ⟨_, two⟩ | ⟨_, _, _, live⟩ := two.of_ran performs allowed
        · exact single.alone first second digest one two
        · exact ((single.revoked first digest one).not_live keyed live).elim
      · obtain ⟨_, two⟩ | ⟨⟨two', _⟩, _⟩ := two.of_ran performs allowed
        · exact ((single.revoked second digest two).not_live keyed live).elim
        · exact one'.trans two'.symm
    · intro other digest exchanging
      obtain ⟨_, exchanging⟩ | ⟨_, now, rfl, row, member, rfl, _⟩ :=
        exchanging.of_ran performs allowed
      · exact grows.revoked (single.revoked other digest exchanging)
      · obtain ⟨later, among, evolves⟩ := grows.kept row member
        exact ⟨later, among, evolves.tokenHash,
          SessionSql.revoke_revoked among evolves.tokenHash⟩
    · intro other digest exchanging event member new replaced
      obtain before' | same := List.mem_append.mp member
      · obtain ⟨_, exchanging⟩ | ⟨_, _, _, live⟩ := exchanging.of_ran performs allowed
        · exact single.unreplaced other digest exchanging event before' new replaced
        · exact (single.ended event before' digest new replaced).not_live keyed live
      · rw [List.mem_singleton.mp same] at replaced
        have mine := exchanges digest new replaced
        obtain ⟨different, exchanging⟩ | ⟨_, _, _, live⟩ := exchanging.of_ran performs allowed
        · exact different (single.alone other thread digest exchanging mine)
        · exact (single.revoked thread digest mine).not_live keyed live
    · intro event member old new replaced
      obtain before' | same := List.mem_append.mp member
      · exact grows.revoked (single.ended event before' old new replaced)
      · rw [List.mem_singleton.mp same] at replaced
        exact grows.revoked (single.revoked thread old (exchanges old new replaced))
    · refine List.pairwise_append.mpr ⟨single.once, List.pairwise_singleton .., ?_⟩
      intro earlier member later same old new other replaced again
      rw [List.mem_singleton.mp same] at again
      exact single.unreplaced thread old (exchanges old other again) earlier member new replaced
  returned := by
    intro events before stages thread call result single at' meets ends
    apply single.idle
    · rintro _ _ ⟨_, _, _, _, _, ⟨⟩, _⟩
    · exact fun _ _ exchanging => exchanging.of_ended
    · exact (kept_keeps guard).returned single.kept at' meets ends
  cancelled := by
    intro events before stages thread call script single at' meets
    apply single.idle
    · rintro _ _ ⟨_, _, _, _, _, ⟨⟩, _⟩
    · exact fun _ _ exchanging => exchanging.of_ended
    · exact (kept_keeps guard).cancelled single.kept at' meets

omit [DecidableEq Thread] in
theorem single_initial : service.Single [] ⟨[], fun _ : Thread => none⟩ fun _ => .opening where
  kept := kept_initial
  alone := by rintro _ _ _ ⟨_, _, _, _, _, _, ⟨⟩, _⟩
  revoked := by rintro _ _ ⟨_, _, _, _, _, _, ⟨⟩, _⟩
  unreplaced := by rintro _ _ ⟨_, _, _, _, _, _, ⟨⟩, _⟩
  ended := by rintro _ ⟨⟩
  once := .nil

end SessionService

end Renvor
