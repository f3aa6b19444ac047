import Renvor.Generate.PlaceRuns

/-! # What runs at one destination leave there

At most one run is placed, and a destination with something in it stays as it is.
Both need the staging directories to have other names than the destination
(`Renvor.Generate.runs_place`, `Renvor.Generate.staged_at_destination`).
-/

namespace Renvor.Generate

open Foundation
open Foundation.Concurrent (Event RepliedSince Service)

variable {Thread : Type} [DecidableEq Thread] {destination : Destination} {start : Entries}

/-- The runs at a destination that none takes for its staging directory. -/
abbrev runs (Thread : Type) [DecidableEq Thread] (destination : Destination) (start : Entries) :
    TransitionSystem (RunWorld Thread) (RunEvent Thread) :=
  (calls destination start).system.restrict fun _ => NamesApart destination

omit [DecidableEq Thread] in
theorem kept_initial :
    Kept destination [] (⟨start, fun _ => none⟩ : RunWorld Thread) fun _ => .opening where
  places := by rintro _ _ _ ⟨⟩
  owned := by
    rintro _ _ ⟨⟨front, _, _, _, _, whole, _⟩, _, _⟩
    simp at whole
  alone := by
    rintro _ _ _ _ ⟨⟨front, _, _, _, _, whole, _⟩, _, _⟩
    simp at whole
  settled := by
    rintro _ _ (⟨⟨_, ⟨⟩⟩, _⟩ | ⟨⟨⟩⟩)
  single := by rintro _ _ _ _ ⟨⟨_, ⟨⟩⟩, _⟩
  unanswered := by rintro _ _ ⟨⟨_, ⟨⟩⟩, _⟩
  once := .nil
  reported := by
    intro front _ _ _ begins
    have empty := List.prefix_nil.mp begins
    simp at empty

section Runs

variable {events later : List (RunEvent Thread)} {world last : RunWorld Thread}

/-- What every run keeps, of any run that starts with no call in progress. -/
theorem runs_kept (run : (runs Thread destination start).Run ⟨start, fun _ => none⟩ events world) :
    ∃ stages, (staging destination start).Conforming world stages ∧
      Kept destination events world stages := by
  have recorded := run.recorded []
  rw [List.nil_append] at recorded
  exact (kept_keeps start).run recorded ((staging destination start).conforming_initial _)
    kept_initial

/-- A step leaves the directory, or is an operation of a call. -/
theorem step_ran {stages : Thread → Stage} {event : RunEvent Thread}
    (kept : Kept destination events world stages)
    (conforming : (staging destination start).Conforming world stages)
    (step : (calls destination start).system.Step world event last) :
    last.store = world.store ∨ ∃ thread call operation did, event = .ran thread call operation did ∧
      Ran destination events world stages thread call operation ∧
      last.store = (operation.run world.store).2 := by
  cases event with
  | started | returned | cancelled =>
      left
      cases Service.step_cases step
      rfl
  | ran thread call operation did =>
      obtain ⟨next, told, at', performs, _⟩ := Service.ran_inv step
      have ran : Ran destination events world stages thread call operation :=
        ⟨kept, kept.places _ _ _ at', (conforming _ _ _ at').1⟩
      exact .inr ⟨thread, call, operation, did, rfl, ran, (performed performs).2.2⟩

/-- A destination with something in it stays as it is in every later state. -/
theorem runs_destination
    (run : (runs Thread destination start).Run ⟨start, fun _ => none⟩ events world)
    (onward : (runs Thread destination start).Run world later last)
    (occupied : Occupied (world.store destination.name)) :
    last.store destination.name = world.store destination.name := by
  induction onward with
  | refl => rfl
  | snoc previous step ih =>
      obtain ⟨stages, conforming, kept⟩ := runs_kept (run.trans previous)
      obtain same | ⟨_, _, _, _, _, ran, after⟩ := step_ran kept conforming step.1
      · rw [same, ih]
      · rw [after, ran.destination_stays, ih]
        rw [ih]
        exact occupied

end Runs

/-- **What runs at one destination do, in any interleaving.** At most one is placed,
and its tree is what the destination then holds; a destination with something in
it stays as it is; a run that fails has made no directory, has removed it or names
it; and what is a run's own no other touches. -/
theorem runs_place (start : Entries) {events later : List (RunEvent Thread)}
    {world last : RunWorld Thread}
    (run : (runs Thread destination start).Run ⟨start, fun _ => none⟩ events world)
    (onward : (runs Thread destination start).Run world later last) :
    events.Pairwise (fun event later => Settles event → ¬ Settles later) ∧
      (∀ thread plan, .returned thread (.generate plan) (.ok (.ok ())) ∈ events →
        world.store destination.name = some (.directory plan.staged)) ∧
      (Occupied (world.store destination.name) →
        last.store destination.name = world.store destination.name) ∧
      (∀ front thread plan failure,
        front ++ [.returned thread (.generate plan) (.ok (.error failure))] <+: events →
        ¬ RepliedSince (Created plan) front thread (.generate plan) ∨
          RepliedSince (Removed plan) front thread (.generate plan) ∨
          Failure.Reports destination plan failure) ∧
      ∀ thread plan, Owns events thread plan → ∀ event after,
        (runs Thread destination start).Step world event after →
        (∀ call operation did, event ≠ .ran thread call operation did) →
        after.store plan.name = world.store plan.name := by
  obtain ⟨stages, conforming, kept⟩ := runs_kept run
  refine ⟨kept.once, ?_, runs_destination run onward, kept.reported, ?_⟩
  · exact fun thread plan answered => kept.settled thread plan (.inr answered)
  · intro thread plan owns event after step elsewhere
    obtain same | ⟨_, _, _, _, rfl, ran, now⟩ := step_ran kept conforming step.1
    · rw [same]
    · rw [now]
      refine ran.others ?_ owns
      rintro rfl
      exact elsewhere _ _ _ rfl

section Sample

open Foundation.Concurrent (Move World)

/-- A run that nothing goes wrong in. -/
def Plan.smooth (name : String) : Plan where
  name := name
  items := [("src", none)]
  filled := by simp
  io _ := none
  stuck _ := none
  rendering := none
  injected := false

def Destination.sample (name : String) : Destination := ⟨"work", name⟩

/-- Nothing is there, and no run has started. -/
def nothing (Thread : Type) : RunWorld Thread := ⟨fun _ => none, fun _ => none⟩

/-- The names two processes draw for their staging directories. -/
def drawn : Bool → String
  | false => ".renvor-staging-41-1700000000000000000-0"
  | true => ".renvor-staging-42-1700000000000000001-0"

/-- Two runs find the destination absent, and the first renames. The second one's rename
fails, and it removes its staging directory. -/
def race : List (RunEvent Bool) :=
  let call run := Call.generate (.smooth (drawn run))
  let stages run : List (RunEvent Bool) :=
    [.ran run (call run) (.createDir (drawn run)) (some (.ok (.ok ()))),
      .ran run (call run) (.openDir (drawn run)) (some (.ok (.ok ()))),
      .ran run (call run) (.write (drawn run) "src" none) (some (.ok (.ok ()))),
      .ran run (call run) (.symlinkMetadata "shop") (some (.ok (.error .notFound)))]
  [.started false (call false), .started true (call true)] ++ stages false ++ stages true ++
    [.ran false (call false) (.rename (drawn false) "shop") (some (.ok (.ok ()))),
      .returned false (call false) (.ok (.ok ())),
      .ran true (call true) (.rename (drawn true) "shop") (some (.ok (.error .directoryNotEmpty))),
      .ran true (call true) (.symlinkMetadata "shop") (some (.ok (.ok .directory))),
      .ran true (call true) (.removeDirAll (drawn true) none) (some (.ok (.ok ()))),
      .returned true (call true) (.ok (.error ⟨(((failed (.sample "shop") .destinationExists).with
        "rule" "destination_absent").with "found" "directory"), none⟩))]

/-- Two runs race, one is placed, and its tree is there. -/
theorem runs_place_one : ∃ world,
    (runs Bool (.sample "shop") fun _ => none).Run (nothing Bool) race world ∧
      world.store "shop" = some (.directory (Plan.smooth (drawn false)).staged) := by
  let moves : List (Move Bool Call Empty) :=
    [.start false (.generate (.smooth (drawn false))), .start true (.generate (.smooth (drawn true)))] ++
      List.replicate 4 (.proceed false .works) ++ List.replicate 4 (.proceed true .works) ++
      List.replicate 2 (.proceed false .works) ++ List.replicate 4 (.proceed true .works)
  let service := calls (.sample "shop") fun _ => none
  have run : (runs Bool (.sample "shop") fun _ => none).Run (nothing Bool) race
      (service.reach (nothing Bool) moves) := by
    apply (Service.play_run moves _).restrict_labels
    · intro event member _ thread plan started
      subst started
      obtain rfl : plan = .smooth (drawn thread) := by
        simp [race] at member
        obtain ⟨rfl, rfl⟩ | ⟨rfl, rfl⟩ := member <;> rfl
      cases thread <;> decide
    · with_unfolding_all rfl
  have placed := (runs_place (fun _ => none) run .refl).2.1 false (.smooth (drawn false))
    (by simp [race])
  exact ⟨_, run, placed⟩

/-- A run whose destination has the name that it draws for its staging directory finds it
there, and removes it with what is in it. -/
theorem staged_at_destination : ¬ ∀ (destination : Destination) (start : Entries)
    (events later : List (RunEvent Unit)) (world last : RunWorld Unit),
    (calls destination start).system.Run ⟨start, fun _ => none⟩ events world →
    (calls destination start).system.Run world later last →
    Occupied (world.store destination.name) →
    last.store destination.name = world.store destination.name := by
  intro stays
  let name := drawn false
  let service := calls (.sample name) fun _ => none
  let call := Call.generate (.smooth name)
  let fills : List (Move Unit Call Empty) :=
    .start () call :: List.replicate 3 (.proceed () .works)
  let removes : List (Move Unit Call Empty) := List.replicate 2 (.proceed () .works)
  have run : service.system.Run (nothing Unit)
      [.started () call,
        .ran () call (.createDir name) (some (.ok (.ok ()))),
        .ran () call (.openDir name) (some (.ok (.ok ()))),
        .ran () call (.write name "src" none) (some (.ok (.ok ())))]
      (service.reach (nothing Unit) fills) := by
    apply Service.play_run fills
    with_unfolding_all rfl
  have onward : service.system.Run (service.reach (nothing Unit) fills)
      [.ran () call (.symlinkMetadata name) (some (.ok (.ok .directory))),
        .ran () call (.removeDirAll name none) (some (.ok (.ok ())))]
      (service.reach (service.reach (nothing Unit) fills) removes) := by
    apply Service.play_run removes
    with_unfolding_all rfl
  have filled : (service.reach (nothing Unit) fills).store name =
      some (.directory [("src", none)]) := by
    with_unfolding_all rfl
  have removed : (service.reach (service.reach (nothing Unit) fills) removes).store name = none := by
    with_unfolding_all rfl
  have same := stays (.sample name) _ _ _ _ _ run onward (by
    change Occupied ((service.reach (nothing Unit) fills).store name)
    rw [filled]
    exact ⟨by simp, by simp⟩)
  change (service.reach (service.reach (nothing Unit) fills) removes).store name = _ at same
  rw [removed] at same
  exact absurd (same.trans filled) (by simp)

end Sample

end Renvor.Generate
