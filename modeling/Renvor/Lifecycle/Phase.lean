import Mathlib.Data.List.Sort
import Mathlib.Order.Basic

/-! # Lifecycle phases and the phase cursor

The seven phases in contract order, and the cursor that walks them. The cursor
has two mutating operations: `advance`, which consults the next phase, and
`skipTo`, which moves only to a later phase. Both record the phase entered, so
the record is strictly increasing whatever the order of calls
(`Renvor.PhaseCursor.Ordered`).
-/

namespace Renvor

/-- One phase of the application lifecycle, in the order the kernel runs them. -/
inductive LifecyclePhase
  | load | validate | register | boot | ready | drain | stop

namespace LifecyclePhase

/-- The first phase. -/
def first : LifecyclePhase := .load

/-- The phase that follows, or none at the last. -/
def next : LifecyclePhase → Option LifecyclePhase
  | .load => some .validate
  | .validate => some .register
  | .register => some .boot
  | .boot => some .ready
  | .ready => some .drain
  | .drain => some .stop
  | .stop => none

/-- The position in the sequence, from zero. -/
def position : LifecyclePhase → Nat
  | .load => 0
  | .validate => 1
  | .register => 2
  | .boot => 3
  | .ready => 4
  | .drain => 5
  | .stop => 6

/-- The next phase is one position later. -/
theorem next_position {phase later : LifecyclePhase} (follows : phase.next = some later) :
    later.position = phase.position + 1 := by
  cases phase <;> cases follows <;> rfl

end LifecyclePhase

/-- Walks the phases forward, recording each phase entered. -/
structure PhaseCursor where
  current : LifecyclePhase
  log : List LifecyclePhase

namespace PhaseCursor

/-- Starts at the first phase and records it. -/
def start : PhaseCursor := ⟨.first, [.first]⟩

/-- Moves to the next phase and records it; at the last phase nothing happens. -/
def advance (cursor : PhaseCursor) : PhaseCursor :=
  match cursor.current.next with
  | some next => ⟨next, cursor.log ++ [next]⟩
  | none => cursor

/-- Jumps to a later phase, recording only the phase entered. A target at or
before the current phase is a no-op. -/
def skipTo (cursor : PhaseCursor) (phase : LifecyclePhase) : PhaseCursor :=
  if cursor.current.position < phase.position then ⟨phase, cursor.log ++ [phase]⟩ else cursor

/-- The record is strictly increasing and ends with the current phase. -/
structure Ordered (cursor : PhaseCursor) : Prop where
  increasing : (cursor.log.map LifecyclePhase.position).Pairwise (· < ·)
  last : cursor.log.getLast? = some cursor.current

theorem start_ordered : start.Ordered := ⟨by decide, rfl⟩

/-- Recording a later phase keeps the record in order. -/
private theorem Ordered.record {cursor : PhaseCursor} (ordered : cursor.Ordered)
    {phase : LifecyclePhase} (later : cursor.current.position < phase.position) :
    PhaseCursor.Ordered ⟨phase, cursor.log ++ [phase]⟩ := by
  refine ⟨?_, by simp⟩
  rw [List.map_append, List.map_singleton, List.pairwise_append]
  refine ⟨ordered.increasing, List.pairwise_singleton _ _, ?_⟩
  intro earlier recorded entered same
  rw [List.mem_singleton.mp same]
  obtain ⟨front, whole⟩ := List.getLast?_eq_some_iff.mp ordered.last
  have increasing := ordered.increasing
  rw [whole, List.map_append, List.mem_append, List.map_singleton, List.mem_singleton] at recorded
  rw [whole, List.map_append, List.map_singleton, List.pairwise_append] at increasing
  rcases recorded with before | now
  · exact lt_trans (increasing.2.2 earlier before _ (List.mem_singleton_self _)) later
  · rw [now]
    exact later

/-- **Advancing keeps the record in order.** -/
theorem Ordered.advance {cursor : PhaseCursor} (ordered : cursor.Ordered) :
    cursor.advance.Ordered := by
  unfold PhaseCursor.advance
  cases follows : cursor.current.next with
  | none => exact ordered
  | some next =>
      have position := LifecyclePhase.next_position follows
      exact ordered.record (by omega)

/-- **Skipping keeps the record in order**, whatever phase is named. -/
theorem Ordered.skipTo {cursor : PhaseCursor} (ordered : cursor.Ordered)
    (phase : LifecyclePhase) : (cursor.skipTo phase).Ordered := by
  unfold PhaseCursor.skipTo
  split
  · next later => exact ordered.record later
  · exact ordered

end PhaseCursor

end Renvor
