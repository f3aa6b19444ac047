import Mathlib.Data.String.Basic
import Renvor.Cache.Port
import Renvor.Foundation.Expiry
import Renvor.Foundation.Machine

/-! # The cache in memory

Entries that ran out stay in the table until they are touched or a write needs the
room. What callers see is a map in which an entry is there until it runs out, and a
call is answered as by that map (`Renvor.Cache.Holds.answer`).
-/

namespace Renvor.Cache

open Foundation Foundation.Expiry

/-- One stored entry: the value, and when it runs out. -/
abbrev Entry := CacheValue × Tick

/-- A cache in memory: its namespace, and how many entries it has room for. -/
structure MemoryCache where
  ns : Namespace
  capacity : Nat
  room : 0 < capacity

/-- What the cache holds, what ran out included. -/
abbrev Entries := OrderedMap String Entry

/-- A call of a cache, its key and its value within their bounds already. -/
inductive CacheCall
  | get (key : CacheKey)
  | set (key : CacheKey) (value : CacheValue) (ttl : Ttl)
  | setIfAbsent (key : CacheKey) (value : CacheValue) (ttl : Ttl)
  | delete (key : CacheKey)
  | purge

/-- What a cache answers a call, with the error it came to if it came to one. -/
inductive CacheAnswer
  | get (answer : Except CacheError (Option CacheValue))
  | set (answer : Except CacheError Unit)
  | setIfAbsent (answer : Except CacheError Stored)
  | delete (answer : Except CacheError Deleted)
  | purge

namespace CacheAnswer

/-- The answer to a write that overwrites, which does not tell whether something was there. -/
def ofWrite (written : Except CacheError Stored) : CacheAnswer := .set (written.map fun _ => ())

/-- The error an answer carries. -/
def error? : CacheAnswer → Option CacheError
  | .get (.error error) | .set (.error error) | .setIfAbsent (.error error)
  | .delete (.error error) => some error
  | _ => none

end CacheAnswer

namespace MemoryCache

/-- The entries a cache has room for where the application sets none. -/
def defaultCapacity : Nat := 10000

/-- A capacity of zero is rounded up to one. -/
def withCapacity (ns : Namespace) (capacity : Nat) : MemoryCache :=
  ⟨ns, max capacity 1, Nat.lt_of_lt_of_le Nat.one_pos (Nat.le_max_right capacity 1)⟩

/-- A cache with the default room. -/
def new (ns : Namespace) : MemoryCache := withCapacity ns defaultCapacity

/-- Drop what ran out; what is still there stays as it is. -/
def purgeExpired (entries : Entries) (now : Tick) : Entries :=
  entries.retain fun entry => decide (now < entry.2.2)

variable (cache : MemoryCache)

/-- Write a value. Entries that ran out are dropped only where the room is needed, and then those
of all keys. -/
def write (entries : Entries) (now : Tick) (key : CacheKey) (value : CacheValue) (ttl : Ttl)
    (onlyIfAbsent : Bool) : Entries × Except CacheError Stored :=
  match cache.ns.qualify key with
  | .error error => (entries, .error error)
  | .ok qualified =>
      let live := (entries.get? qualified).any fun entry => decide (now < entry.2)
      if live && onlyIfAbsent then (entries, .ok .alreadyPresent)
      else if !live && decide (cache.capacity ≤ entries.size) then
        let purged := purgeExpired entries now
        if cache.capacity ≤ purged.size ∧ purged.get? qualified = none then
          (purged, .error .capacity)
        else (purged.insert qualified (value, now + ttl.duration), .ok .stored)
      else (entries.insert qualified (value, now + ttl.duration), .ok .stored)

/-- Read a value, dropping the entry where it ran out. -/
def rawGet (entries : Entries) (now : Tick) (key : CacheKey) :
    Entries × Except CacheError (Option CacheValue) :=
  match cache.ns.qualify key with
  | .error error => (entries, .error error)
  | .ok qualified =>
      match entries.get? qualified with
      | some entry =>
          if now < entry.2 then (entries, .ok (some entry.1))
          -- removed on touch, and reported as the miss it is
          else (entries.erase qualified, .ok none)
      | none => (entries, .ok none)

/-- Delete a value, and tell whether it was still there. -/
def rawDelete (entries : Entries) (now : Tick) (key : CacheKey) :
    Entries × Except CacheError Deleted :=
  match cache.ns.qualify key with
  | .error error => (entries, .error error)
  | .ok qualified =>
      match entries.get? qualified with
      | some entry =>
          if now < entry.2 then (entries.erase qualified, .ok .removed)
          else (entries.erase qualified, .ok .absent)
      | none => (entries.erase qualified, .ok .absent)

/-- How the cache answers each call, at the time it is made. -/
def answer (entries : Entries) : Tick × CacheCall → Entries × CacheAnswer
  | (now, .get key) => (cache.rawGet entries now key).map id .get
  | (now, .set key value ttl) =>
      (cache.write entries now key value ttl false).map id .ofWrite
  | (now, .setIfAbsent key value ttl) =>
      (cache.write entries now key value ttl true).map id .setIfAbsent
  | (now, .delete key) => (cache.rawDelete entries now key).map id .delete
  | (now, .purge) => (purgeExpired entries now, .purge)

/-- The cache as a machine that answers one call after the other. -/
def machine : Machine Entries (Tick × CacheCall) CacheAnswer := ⟨cache.answer⟩

end MemoryCache

/-! ## The map callers see -/

/-- What was last written under each key and not deleted since, and until when it is there. -/
abbrev Ledger := CacheKey → Option Entry

namespace Ledger

/-- A key is there. -/
def Live (now : Tick) (ledger : Ledger) (key : CacheKey) : Prop :=
  (current now (ledger key)).isSome = true

/-- A write finds no room: the key is not there, and as many others are as may be. -/
def Full (capacity : Nat) (now : Tick) (ledger : Ledger) (key : CacheKey) : Prop :=
  ¬ Live now ledger key ∧ capacity ≤ (others now ledger key).ncard

open Classical in
/-- A map answers a write: it is refused for its key, for what is there, or for want of room. -/
noncomputable def write (cache : MemoryCache) (ledger : Ledger) (now : Tick) (key : CacheKey)
    (value : CacheValue) (ttl : Ttl) (onlyIfAbsent : Bool) : Ledger × Except CacheError Stored :=
  if maxKeyBytes < (cache.ns.place key).utf8ByteSize then (ledger, .error (.refused .keyTooLong))
  else if Live now ledger key ∧ onlyIfAbsent = true then (ledger, .ok .alreadyPresent)
  else if Full cache.capacity now ledger key then (ledger, .error .capacity)
  else (Function.update ledger key (some (value, now + ttl.duration)), .ok .stored)

/-- A map answers a read with what is there still. -/
def get (cache : MemoryCache) (ledger : Ledger) (now : Tick) (key : CacheKey) :
    Except CacheError (Option CacheValue) :=
  if maxKeyBytes < (cache.ns.place key).utf8ByteSize then .error (.refused .keyTooLong)
  else .ok ((current now (ledger key)).map Prod.fst)

open Classical in
/-- A map answers a deletion, whether something was there or not. -/
noncomputable def delete (cache : MemoryCache) (ledger : Ledger) (now : Tick) (key : CacheKey) :
    Ledger × Except CacheError Deleted :=
  if maxKeyBytes < (cache.ns.place key).utf8ByteSize then (ledger, .error (.refused .keyTooLong))
  else (Function.update ledger key none,
    .ok (if Live now ledger key then .removed else .absent))

/-- A map answers each call. Purging changes nothing that callers see. -/
noncomputable def answer (cache : MemoryCache) (ledger : Ledger) :
    Tick × CacheCall → Ledger × CacheAnswer
  | (now, .get key) => (ledger, .get (get cache ledger now key))
  | (now, .set key value ttl) =>
      (write cache ledger now key value ttl false).map id .ofWrite
  | (now, .setIfAbsent key value ttl) =>
      (write cache ledger now key value ttl true).map id .setIfAbsent
  | (now, .delete key) => (delete cache ledger now key).map id .delete
  | (_, .purge) => (ledger, .purge)

/-- The map as a machine that answers one call after the other. -/
noncomputable def machine (cache : MemoryCache) : Machine Ledger (Tick × CacheCall) CacheAnswer :=
  ⟨answer cache⟩

end Ledger

/-! ## The table mirrors the map -/

/-- What holds of a table and the map at a time. -/
structure Holds (cache : MemoryCache) (now : Tick) (entries : Entries) (ledger : Ledger) : Prop where
  mirrors : Mirrors cache.ns.place now entries ledger
  bounded : entries.size ≤ cache.capacity

/-- Two keys of one cache are stored under two places. -/
theorem place_apart (ns : Namespace) : Function.Injective ns.place :=
  fun _ _ same => (Namespace.place_injective same).2

namespace Holds

variable {cache : MemoryCache} {now : Tick} {entries : Entries} {ledger : Ledger}

/-- A new cache holds what a map without entries shows. -/
theorem empty (cache : MemoryCache) (now : Tick) :
    Holds cache now OrderedMap.empty fun _ => none :=
  ⟨.empty _ _, Nat.zero_le _⟩

/-- As time goes by entries run out, in the cache and in the map alike. -/
theorem later (holds : Holds cache now entries ledger) {time : Tick} (after : now ≤ time) :
    Holds cache time entries ledger :=
  ⟨holds.mirrors.later after, holds.bounded⟩

/-- The flag a write reads says whether the key is there. -/
theorem live_iff (holds : Holds cache now entries ledger) (key : CacheKey) :
    ((entries.get? (cache.ns.place key)).any fun entry => decide (now < entry.2)) = true ↔
      Ledger.Live now ledger key := by
  rw [Ledger.Live, ← holds.mirrors.now_same key, isSome_current]

/-- Purging keeps what callers see, since only what ran out is dropped. -/
theorem purge (holds : Holds cache now entries ledger) :
    Holds cache now (MemoryCache.purgeExpired entries now) ledger :=
  ⟨holds.mirrors.retain, (OrderedMap.size_retain_le _ _).trans holds.bounded⟩

/-- After purging, the cache holds as many entries as there are other keys that callers see. -/
theorem purged_size (holds : Holds cache now entries ledger) {key : CacheKey}
    (dead : ¬ Ledger.Live now ledger key) :
    (MemoryCache.purgeExpired entries now).size = (others now ledger key).ncard :=
  holds.mirrors.size_retain (place_apart cache.ns) (Option.not_isSome_iff_eq_none.mp dead)

/-- A key that is not there has no entry left in a purged table. -/
theorem purged_get? (holds : Holds cache now entries ledger) {key : CacheKey}
    (dead : ¬ Ledger.Live now ledger key) :
    (MemoryCache.purgeExpired entries now).get? (cache.ns.place key) = none := by
  rw [OrderedMap.get?_none]
  intro entry member
  obtain ⟨held, counts⟩ := OrderedMap.mem_retain.mp member
  refine dead ?_
  rw [← holds.live_iff, OrderedMap.get?_some.mpr held]
  exact counts

/-- Writing over what is there takes no more room, and is seen as a write of the map. -/
theorem insert_live (holds : Holds cache now entries ledger) {key : CacheKey}
    (live : Ledger.Live now ledger key) (entry : Entry) :
    Holds cache now (entries.insert (cache.ns.place key) entry)
      (Function.update ledger key (some entry)) := by
  refine ⟨holds.mirrors.insert (place_apart cache.ns) key entry, ?_⟩
  have held := (holds.live_iff key).mpr live
  have grown := OrderedMap.size_insert entries (cache.ns.place key) entry
  have bounded := holds.bounded
  cases found : entries.get? (cache.ns.place key) with
  | none =>
      rw [found] at held
      cases held
  | some old =>
      rw [found, Option.elim_some] at grown
      omega

/-- Writing where there is room is seen as a write of the map, whatever the key held. -/
theorem insert_room (holds : Holds cache now entries ledger) (key : CacheKey)
    (room : entries.size < cache.capacity) (entry : Entry) :
    Holds cache now (entries.insert (cache.ns.place key) entry)
      (Function.update ledger key (some entry)) := by
  refine ⟨holds.mirrors.insert (place_apart cache.ns) key entry, ?_⟩
  have grown := OrderedMap.size_insert entries (cache.ns.place key) entry
  omega

/-- **A write is answered as by the map.** -/
theorem write (holds : Holds cache now entries ledger) (key : CacheKey) (value : CacheValue)
    (ttl : Ttl) (onlyIfAbsent : Bool) :
    (cache.write entries now key value ttl onlyIfAbsent).2 =
        (Ledger.write cache ledger now key value ttl onlyIfAbsent).2 ∧
      Holds cache now (cache.write entries now key value ttl onlyIfAbsent).1
        (Ledger.write cache ledger now key value ttl onlyIfAbsent).1 := by
  unfold MemoryCache.write Ledger.write Namespace.qualify
  by_cases long : maxKeyBytes < (cache.ns.place key).utf8ByteSize
  · rw [if_pos long, if_pos long]
    exact ⟨rfl, holds⟩
  rw [if_neg long, if_neg long]
  dsimp only
  by_cases live : Ledger.Live now ledger key
  · rw [(holds.live_iff key).mpr live]
    cases onlyIfAbsent with
    | true =>
        rw [if_pos (Bool.and_self true), if_pos ⟨live, rfl⟩]
        exact ⟨rfl, holds⟩
    | false =>
        rw [if_neg (by simp), if_neg (by simp), if_neg (by simp),
          if_neg fun full => full.1 live]
        exact ⟨rfl, holds.insert_live live _⟩
  · have writes : ¬ (Ledger.Live now ledger key ∧ onlyIfAbsent = true) := fun both => live both.1
    rw [Bool.eq_false_iff.mpr (mt (holds.live_iff key).mp live), if_neg (by simp), if_neg writes]
    by_cases room : entries.size < cache.capacity
    · have fits : ¬ Ledger.Full cache.capacity now ledger key := by
        intro full
        have fewer := OrderedMap.size_retain_le entries fun entry => decide (now < entry.2.2)
        have counted := holds.purged_size live
        have crowded := full.2
        unfold MemoryCache.purgeExpired at counted
        omega
      rw [if_neg (by simp [room]), if_neg fits]
      exact ⟨rfl, holds.insert_room key room _⟩
    · rw [if_pos (by simp [Nat.le_of_not_lt room])]
      by_cases full : cache.capacity ≤ (MemoryCache.purgeExpired entries now).size
      · rw [if_pos ⟨full, holds.purged_get? live⟩, if_pos ⟨live, holds.purged_size live ▸ full⟩]
        exact ⟨rfl, holds.purge⟩
      · rw [if_neg fun both => full both.1,
          if_neg fun both => full (holds.purged_size live ▸ both.2)]
        exact ⟨rfl, holds.purge.insert_room key (Nat.lt_of_not_le full) _⟩

/-- A read is answered as by the map, and dropping what ran out goes unseen. -/
theorem get (holds : Holds cache now entries ledger) (key : CacheKey) :
    (cache.rawGet entries now key).2 = Ledger.get cache ledger now key ∧
      Holds cache now (cache.rawGet entries now key).1 ledger := by
  unfold MemoryCache.rawGet Ledger.get Namespace.qualify
  by_cases long : maxKeyBytes < (cache.ns.place key).utf8ByteSize
  · rw [if_pos long, if_pos long]
    exact ⟨rfl, holds⟩
  rw [if_neg long, if_neg long, ← holds.mirrors.now_same key]
  dsimp only
  cases found : entries.get? (cache.ns.place key) with
  | none => exact ⟨rfl, holds⟩
  | some entry =>
      dsimp only
      by_cases counts : now < entry.2
      · rw [if_pos counts, current_some.mpr ⟨rfl, counts⟩]
        exact ⟨rfl, holds⟩
      · have dead : current now (some entry) = none := by
          rw [Option.eq_none_iff_forall_ne_some]
          intro held shows
          obtain ⟨same, before⟩ := current_some.mp shows
          cases same
          exact counts before
        rw [if_neg counts, dead]
        refine ⟨rfl, holds.mirrors.erase_dead (place_apart cache.ns) ?_,
          (OrderedMap.size_erase_le _ _).trans holds.bounded⟩
        rw [← holds.mirrors.now_same key, found, dead]

/-- A deletion is answered as by the map, and what ran out counts as not there. -/
theorem delete (holds : Holds cache now entries ledger) (key : CacheKey) :
    (cache.rawDelete entries now key).2 = (Ledger.delete cache ledger now key).2 ∧
      Holds cache now (cache.rawDelete entries now key).1
        (Ledger.delete cache ledger now key).1 := by
  have gone : Holds cache now (entries.erase (cache.ns.place key))
      (Function.update ledger key none) :=
    ⟨holds.mirrors.erase (place_apart cache.ns) key,
      (OrderedMap.size_erase_le _ _).trans holds.bounded⟩
  have flag := holds.live_iff key
  unfold MemoryCache.rawDelete Ledger.delete Namespace.qualify
  by_cases long : maxKeyBytes < (cache.ns.place key).utf8ByteSize
  · rw [if_pos long, if_pos long]
    exact ⟨rfl, holds⟩
  rw [if_neg long, if_neg long]
  dsimp only
  cases found : entries.get? (cache.ns.place key) with
  | none =>
      rw [found] at flag
      rw [if_neg (mt flag.mpr (by simp))]
      exact ⟨rfl, gone⟩
  | some entry =>
      rw [found, Option.any_some, decide_eq_true_eq] at flag
      dsimp only
      by_cases counts : now < entry.2
      · rw [if_pos counts, if_pos (flag.mp counts)]
        exact ⟨rfl, gone⟩
      · rw [if_neg counts, if_neg (mt flag.mpr counts)]
        exact ⟨rfl, gone⟩

/-- **Every call is answered as by the map.** -/
theorem answer (holds : Holds cache now entries ledger) (call : CacheCall) :
    (cache.answer entries (now, call)).2 = (Ledger.answer cache ledger (now, call)).2 ∧
      Holds cache now (cache.answer entries (now, call)).1
        (Ledger.answer cache ledger (now, call)).1 := by
  cases call with
  | get key =>
      obtain ⟨same, kept⟩ := holds.get key
      exact ⟨congrArg CacheAnswer.get same, kept⟩
  | set key value ttl =>
      obtain ⟨same, kept⟩ := holds.write key value ttl false
      exact ⟨congrArg CacheAnswer.ofWrite same, kept⟩
  | setIfAbsent key value ttl =>
      obtain ⟨same, kept⟩ := holds.write key value ttl true
      exact ⟨congrArg CacheAnswer.setIfAbsent same, kept⟩
  | delete key =>
      obtain ⟨same, kept⟩ := holds.delete key
      exact ⟨congrArg CacheAnswer.delete same, kept⟩
  | purge => exact ⟨rfl, holds.purge⟩

/-- **A run is answered as by the map**, while the clock does not go back. -/
theorem run (holds : Holds cache now entries ledger) {calls : List (Tick × CacheCall)}
    (since : ∀ call ∈ calls, now ≤ call.1)
    (forward : calls.Pairwise fun earlier later => earlier.1 ≤ later.1) :
    cache.machine.log entries calls = (Ledger.machine cache).log ledger calls ∧
      ∀ time, now ≤ time → (∀ call ∈ calls, call.1 ≤ time) →
        Holds cache time (cache.machine.run entries calls)
          ((Ledger.machine cache).run ledger calls) := by
  induction calls generalizing now entries ledger with
  | nil => exact ⟨rfl, fun time after _ => holds.later after⟩
  | cons call rest ih =>
      obtain ⟨reading, call⟩ := call
      obtain ⟨before, forward⟩ := List.pairwise_cons.mp forward
      obtain ⟨same, kept⟩ := (holds.later (since _ List.mem_cons_self)).answer call
      obtain ⟨others, after⟩ := ih kept before forward
      refine ⟨congrArg₂ List.cons (congrArg _ same) others, fun time _ reached => ?_⟩
      exact after time (reached _ List.mem_cons_self) fun later member =>
        reached later (List.mem_cons_of_mem _ member)

end Holds

end Renvor.Cache
