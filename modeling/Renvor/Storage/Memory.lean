import Renvor.Kernel.Arithmetic
import Renvor.Storage.Port

/-! # The object store in memory -/

namespace Renvor

open Foundation

/-- A store in memory: its bounds, and how many bytes it has room for. -/
structure MemoryStore where
  bounds : StorageBounds
  capacity : Nat

/-- What the store holds, and the bytes it counts. -/
structure MemoryTable where
  objects : ObjectKey → Option Object
  used : Nat

namespace MemoryStore

/-- The room of a store where the application sets none. -/
def defaultCapacityBytes : Nat := 256 * 1024 * 1024

/-- The most a capacity can be, which no count of bytes is over. -/
def unlimited : Nat := 2 ^ 64 - 1

variable (store : MemoryStore)

/-- Put an object under its key, in place of what was there, where the bytes of all objects still
have room. -/
def put (table : MemoryTable) (key : ObjectKey) (bytes : List UInt8)
    (contentType : Option ContentType) : MemoryTable × Except StorageError Unit :=
  match store.bounds.check bytes.length with
  | .error error => (table, .error error)
  | .ok () =>
      let existing := (table.objects key).elim 0 fun object => object.bytes.length
      let after := min (table.used - existing + bytes.length) (2 ^ 64 - 1)
      if store.capacity < after then (table, .error .capacity)
      else (⟨Function.update table.objects key (some ⟨bytes, contentType⟩), after⟩, .ok ())

/-- Read an object, if there is one. -/
def get (table : MemoryTable) (key : ObjectKey) : Except StorageError (Option Object) :=
  .ok (table.objects key)

/-- Read what is told of an object, if there is one. -/
def head (table : MemoryTable) (key : ObjectKey) : Except StorageError (Option ObjectMeta) :=
  .ok ((table.objects key).map Object.meta)

/-- Delete an object, and give the bytes it took back. -/
def delete (table : MemoryTable) (key : ObjectKey) : MemoryTable × Except StorageError Deleted :=
  match table.objects key with
  | some object =>
      (⟨Function.update table.objects key none, table.used - object.bytes.length⟩, .ok .deleted)
  | none => (table, .ok .absent)

/-- How the store answers each call of the port. -/
def answer (table : MemoryTable) : StoreCall → MemoryTable × StoreAnswer
  | .put key bytes contentType => (store.put table key bytes contentType).map id .put
  | .get key => (table, .get (get table key))
  | .head key => (table, .head (head table key))
  | .delete key => (delete table key).map id .delete

/-- The store as a machine that answers one call after the other. -/
def machine : Machine MemoryTable StoreCall StoreAnswer := ⟨store.answer⟩

/-- A store that holds no object and counts no bytes. -/
def empty : MemoryTable := ⟨fun _ => none, 0⟩

variable {store}

/-- With room without limit a call is answered as by a map. -/
theorem answer_unlimited (room : store.capacity = unlimited) (table : MemoryTable)
    (call : StoreCall) :
    (store.answer table call).2 = (Catalogue.answer store.bounds table.objects call).2 ∧
      (store.answer table call).1.objects = (Catalogue.answer store.bounds table.objects call).1 := by
  cases call with
  | put key bytes contentType =>
      have fits : ∀ count, ¬ store.capacity < min count (2 ^ 64 - 1) := by
        intro count
        rw [room]
        exact Nat.not_lt.mpr (Nat.min_le_right _ _)
      dsimp only [answer, Catalogue.answer, put]
      cases store.bounds.check bytes.length with
      | error error => exact ⟨rfl, rfl⟩
      | ok =>
          dsimp only
          rw [if_neg (fits _)]
          exact ⟨rfl, rfl⟩
  | get key => exact ⟨rfl, rfl⟩
  | head key => exact ⟨rfl, rfl⟩
  | delete key =>
      dsimp only [answer, Catalogue.answer, delete]
      cases table.objects key with
      | none => exact ⟨rfl, rfl⟩
      | some object => exact ⟨rfl, rfl⟩

/-- **The store in memory with room without limit is a map.** -/
theorem log_unlimited (room : store.capacity = unlimited) (calls : List StoreCall) :
    store.machine.log empty calls = (Catalogue.machine store.bounds).log Catalogue.empty calls := by
  have mirroring : store.machine.Mirroring (Catalogue.machine store.bounds)
      (fun _ table objects => table.objects = objects) fun _ _ _ => True := by
    constructor
    · rintro past table objects call rfl
      exact iff_of_true (answer_unlimited room table call).1 trivial
    · rintro past table objects call rfl -
      exact (answer_unlimited room table call).2
  have answers := @Machine.log_eq_iff _ _ _ _ _ _ _ _ mirroring [] empty Catalogue.empty rfl calls
  exact answers.mpr fun _ _ _ _ => trivial

end MemoryStore

end Renvor
