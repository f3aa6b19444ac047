import Mathlib.Algebra.Order.BigOperators.Group.List
import Renvor.Cache.Memory

/-! # Runs of the cache in memory

Along every run whose clock does not go back the cache answers as a map in which an
entry is there until it runs out, in no more room than its capacity
(`Renvor.Cache.MemoryCache.answers_as_map`).
-/

namespace Renvor.Cache

open Foundation Foundation.Expiry

/-- No reading of the clock is before an earlier one. -/
def Forward (calls : List (Tick × CacheCall)) : Prop :=
  calls.Pairwise fun earlier later => earlier.1 ≤ later.1

namespace CacheCall

/-- The key a call writes. -/
def written? : CacheCall → Option CacheKey
  | .set key _ _ | .setIfAbsent key _ _ => some key
  | .get _ | .delete _ | .purge => none

/-- The key a call writes or deletes. -/
def changed? : CacheCall → Option CacheKey
  | .set key _ _ | .setIfAbsent key _ _ | .delete key => some key
  | .get _ | .purge => none

end CacheCall

namespace MemoryCache

/-- The table after calls on an empty cache. -/
def after (cache : MemoryCache) (calls : List (Tick × CacheCall)) : Entries :=
  cache.machine.run OrderedMap.empty calls

/-- The map after the same calls. -/
noncomputable def ledger (cache : MemoryCache) (calls : List (Tick × CacheCall)) : Ledger :=
  (Ledger.machine cache).run (fun _ => none) calls

/-- What holds of a run that is answered as by a map. -/
structure AnswersAsMap (cache : MemoryCache) (calls : List (Tick × CacheCall)) : Prop where
  same : cache.machine.log OrderedMap.empty calls = (Ledger.machine cache).log (fun _ => none) calls
  bounded : ∀ earlier later, calls = earlier ++ later → (cache.after earlier).size ≤ cache.capacity
  refused : ∀ earlier now call later key, calls = earlier ++ (now, call) :: later →
    call.written? = some key →
    ((cache.answer (cache.after earlier) (now, call)).2.error? = some .capacity ↔
      (cache.ns.place key).utf8ByteSize ≤ maxKeyBytes ∧
        (cache.ledger earlier).Full cache.capacity now key)
  kept : ∀ earlier middle later key entry now, calls = earlier ++ middle ++ later →
    (∀ call ∈ middle, call.2.changed? ≠ some key) →
    (∀ call ∈ earlier ++ middle, call.1 ≤ now) → now < entry.2 →
    (cache.after earlier).get? (cache.ns.place key) = some entry →
    (cache.after (earlier ++ middle)).get? (cache.ns.place key) = some entry
  once : ∀ earlier now key value ttl later,
    calls = earlier ++ (now, .setIfAbsent key value ttl) :: later →
    (cache.answer (cache.after earlier) (now, .setIfAbsent key value ttl)).2 =
      .setIfAbsent (.ok .stored) →
    ¬ (cache.ledger earlier).Live now key ∧
      (cache.ledger (earlier ++ [(now, .setIfAbsent key value ttl)])).Live now key

end MemoryCache

variable {cache : MemoryCache}

namespace Ledger

variable {ledger : Ledger} {now : Tick} {key : CacheKey}

/-- What a write answers. -/
theorem write_cases (cache : MemoryCache) (ledger : Ledger) (now : Tick) (key : CacheKey)
    (value : CacheValue) (ttl : Ttl) (onlyIfAbsent : Bool) :
    (maxKeyBytes < (cache.ns.place key).utf8ByteSize ∧
      write cache ledger now key value ttl onlyIfAbsent =
        (ledger, .error (.refused .keyTooLong))) ∨
    ((cache.ns.place key).utf8ByteSize ≤ maxKeyBytes ∧ Live now ledger key ∧ onlyIfAbsent = true ∧
      write cache ledger now key value ttl onlyIfAbsent = (ledger, .ok .alreadyPresent)) ∨
    ((cache.ns.place key).utf8ByteSize ≤ maxKeyBytes ∧ Full cache.capacity now ledger key ∧
      write cache ledger now key value ttl onlyIfAbsent = (ledger, .error .capacity)) ∨
    ((cache.ns.place key).utf8ByteSize ≤ maxKeyBytes ∧
      ¬ (Live now ledger key ∧ onlyIfAbsent = true) ∧ ¬ Full cache.capacity now ledger key ∧
      write cache ledger now key value ttl onlyIfAbsent =
        (Function.update ledger key (some (value, now + ttl.duration)), .ok .stored)) := by
  unfold write
  by_cases long : maxKeyBytes < (cache.ns.place key).utf8ByteSize
  · exact .inl ⟨long, if_pos long⟩
  have fits := Nat.le_of_not_lt long
  rw [if_neg long]
  by_cases present : Live now ledger key ∧ onlyIfAbsent = true
  · exact .inr (.inl ⟨fits, present.1, present.2, if_pos present⟩)
  rw [if_neg present]
  by_cases full : Full cache.capacity now ledger key
  · exact .inr (.inr (.inl ⟨fits, full, if_pos full⟩))
  · exact .inr (.inr (.inr ⟨fits, present, full, if_neg full⟩))

/-- A write finds no room exactly where it is refused for capacity. -/
theorem write_capacity (value : CacheValue) (ttl : Ttl) (onlyIfAbsent : Bool) :
    (write cache ledger now key value ttl onlyIfAbsent).2 = .error .capacity ↔
      (cache.ns.place key).utf8ByteSize ≤ maxKeyBytes ∧ Full cache.capacity now ledger key := by
  obtain ⟨long, answered⟩ | ⟨fits, live, _, answered⟩ | ⟨fits, full, answered⟩ |
    ⟨fits, _, room, answered⟩ := write_cases cache ledger now key value ttl onlyIfAbsent
  · rw [answered]
    exact iff_of_false (by simp) fun both => Nat.not_lt.mpr both.1 long
  · rw [answered]
    exact iff_of_false (by simp) fun both => both.2.1 live
  · rw [answered]
    exact iff_of_true rfl ⟨fits, full⟩
  · rw [answered]
    exact iff_of_false (by simp) fun both => room both.2

/-- A call changes no key but its own. -/
theorem answer_other (call : CacheCall) (other : call.changed? ≠ some key) :
    (answer cache ledger (now, call)).1 key = ledger key := by
  have written : ∀ another value ttl onlyIfAbsent, another ≠ key →
      (write cache ledger now another value ttl onlyIfAbsent).1 key = ledger key := by
    intro another value ttl onlyIfAbsent different
    obtain ⟨_, answered⟩ | ⟨_, _, _, answered⟩ | ⟨_, _, answered⟩ | ⟨_, _, _, answered⟩ :=
      write_cases cache ledger now another value ttl onlyIfAbsent
    · rw [answered]
    · rw [answered]
    · rw [answered]
    · rw [answered]
      exact Function.update_of_ne (Ne.symm different) _ _
  cases call with
  | get another => rfl
  | set another value ttl => exact written another value ttl false fun same => other (same ▸ rfl)
  | setIfAbsent another value ttl =>
      exact written another value ttl true fun same => other (same ▸ rfl)
  | delete another =>
      dsimp only [answer, delete]
      split
      next => rfl
      next => exact Function.update_of_ne (fun same => other (congrArg some same.symm)) _ _
  | purge => rfl

theorem run_other {calls : List (Tick × CacheCall)}
    (others : ∀ call ∈ calls, call.2.changed? ≠ some key) :
    (machine cache).run ledger calls key = ledger key := by
  induction calls generalizing ledger with
  | nil => rfl
  | cons call rest ih =>
      have after := @ih (answer cache ledger call).1 fun call member =>
        others call (List.mem_cons_of_mem _ member)
      exact after.trans (answer_other call.2 (others call List.mem_cons_self))

end Ledger

namespace MemoryCache

theorem error?_ofWrite (written : Except CacheError Stored) :
    (CacheAnswer.ofWrite written).error? = some .capacity ↔ written = .error .capacity := by
  cases written with
  | error error => simp [CacheAnswer.ofWrite, Except.map, CacheAnswer.error?]
  | ok _ => simp [CacheAnswer.ofWrite, Except.map, CacheAnswer.error?]

theorem error?_setIfAbsent (written : Except CacheError Stored) :
    (CacheAnswer.setIfAbsent written).error? = some .capacity ↔ written = .error .capacity := by
  cases written with
  | error error => simp [CacheAnswer.error?]
  | ok _ => simp [CacheAnswer.error?]

/-- The table and the map after the calls before a reading. -/
theorem holds_after (cache : MemoryCache) {calls : List (Tick × CacheCall)} (forward : Forward calls) {now : Tick}
    (reached : ∀ call ∈ calls, call.1 ≤ now) :
    Holds cache now (cache.after calls) (cache.ledger calls) :=
  ((Holds.empty cache 0).run (fun _ _ => Nat.zero_le _) forward).2 now (Nat.zero_le _) reached

theorem holds_before (cache : MemoryCache) {calls earlier later : List (Tick × CacheCall)} {now : Tick}
    {call : CacheCall} (forward : Forward calls) (split : calls = earlier ++ (now, call) :: later) :
    Holds cache now (cache.after earlier) (cache.ledger earlier) := by
  subst split
  obtain ⟨before, _, along⟩ := List.pairwise_append.mp forward
  exact holds_after cache before fun call member => along call member _ List.mem_cons_self

/-- **The cache answers as a map in which an entry is there until it runs out**, and places
of different namespaces are different. -/
theorem answers_as_map (cache : MemoryCache) (calls : List (Tick × CacheCall))
    (forward : Forward calls) :
    cache.AnswersAsMap calls ∧
      ∀ (ns other : Namespace) (key another : CacheKey),
        ns.place key = other.place another → ns = other ∧ key = another := by
  refine ⟨?_, fun _ _ _ _ => Namespace.place_injective⟩
  constructor
  · exact ((Holds.empty cache 0).run (fun _ _ => Nat.zero_le _) forward).1
  · rintro earlier later rfl
    have before := (List.pairwise_append.mp forward).1
    exact (holds_after cache before fun call member =>
      List.le_sum_of_mem (List.mem_map_of_mem member)).bounded
  · intro earlier now call later key split writes
    have same := (holds_before cache forward split).answer call
    rw [same.1]
    cases call with
    | get another => cases writes
    | set another value ttl =>
        cases writes
        exact (error?_ofWrite _).trans (Ledger.write_capacity value ttl false)
    | setIfAbsent another value ttl =>
        cases writes
        exact (error?_setIfAbsent _).trans (Ledger.write_capacity value ttl true)
    | delete another => cases writes
    | purge => cases writes
  · rintro earlier middle later key entry now rfl others reached counts held
    have along := (List.pairwise_append.mp forward).1
    have before := holds_after cache (List.pairwise_append.mp along).1
      fun call member => reached call (List.mem_append_left _ member)
    have behind := holds_after cache along reached
    have shown := before.mirrors.now_same key
    rw [held, current_some.mpr ⟨rfl, counts⟩] at shown
    have noted := (current_some.mp shown.symm).1
    have still : cache.ledger (earlier ++ middle) key = some entry := by
      unfold ledger at noted ⊢
      rw [Machine.run_append, Ledger.run_other others, noted]
    have shows := behind.mirrors.now_same key
    rw [still, current_some.mpr ⟨rfl, counts⟩] at shows
    exact (current_some.mp shows).1
  · intro earlier now key value ttl later split stored
    have same := (holds_before cache forward split).answer (.setIfAbsent key value ttl)
    rw [same.1] at stored
    have next : cache.ledger (earlier ++ [(now, .setIfAbsent key value ttl)]) =
        (Ledger.write cache (cache.ledger earlier) now key value ttl true).1 := by
      unfold ledger
      rw [Machine.run_append]
      rfl
    have answered : (Ledger.write cache (cache.ledger earlier) now key value ttl true).2 =
        .ok .stored := CacheAnswer.setIfAbsent.inj stored
    rw [next]
    obtain ⟨_, written⟩ | ⟨_, _, _, written⟩ | ⟨_, _, written⟩ | ⟨_, absent, _, written⟩ :=
      Ledger.write_cases cache (cache.ledger earlier) now key value ttl true
    · rw [written] at answered
      cases answered
    · rw [written] at answered
      cases answered
    · rw [written] at answered
      cases answered
    · rw [written]
      refine ⟨fun live => absent ⟨live, rfl⟩, ?_⟩
      unfold Ledger.Live
      dsimp only
      rw [Function.update_self, isSome_current]
      exact decide_eq_true (Nat.lt_add_of_pos_right ttl.positive)

theorem fault_replicate : CacheKey.fault (String.ofList (List.replicate 511 'x')) = none := by
  have size : (String.ofList (List.replicate 511 'x')).utf8ByteSize = 511 := by
    rw [utf8ByteSize_ofList fun character member => by rw [List.eq_of_mem_replicate member]; rfl,
      List.length_replicate]
  have plain : (List.replicate 511 'x').find? (fun character =>
      isControl character || isWhitespace character) = none := by
    rw [List.find?_eq_none]
    intro character member
    rw [List.eq_of_mem_replicate member]
    decide
  rw [CacheKey.fault, String.isEmpty_eq_utf8ByteSize_beq_zero, size, String.toList_ofList, plain]
  rfl

/-- A key that can be made and is too long to be stored. -/
def longKey : CacheKey := ⟨String.ofList (List.replicate 511 'x'), fault_replicate⟩

def shortKey : CacheKey := ⟨"k", by decide +kernel⟩

def single : MemoryCache := ⟨⟨"a", by decide +kernel⟩, 1, Nat.one_pos⟩

/-- Two keys are set, and the second is too long for its namespace. -/
def crowded : List (Tick × CacheCall) :=
  [(0, .set shortKey ⟨[], Nat.zero_le _⟩ ⟨minTtl, by decide⟩),
    (1, .set longKey ⟨[], Nat.zero_le _⟩ ⟨minTtl, by decide⟩)]

/-- A write without room is refused for its key first. -/
theorem long_key_refused : ¬ ∀ (cache : MemoryCache) (calls : List (Tick × CacheCall)),
    Forward calls → ∀ earlier now call later key, calls = earlier ++ (now, call) :: later →
      call.written? = some key →
      ((cache.answer (cache.after earlier) (now, call)).2.error? = some .capacity ↔
        (cache.ledger earlier).Full cache.capacity now key) := by
  intro exact
  have ordered : Forward crowded := by unfold Forward crowded; decide
  have refused := exact single crowded ordered (crowded.take 1) 1 _ [] longKey rfl rfl
  have holds := @holds_before single crowded (crowded.take 1) [] 1 _ ordered rfl
  have dead : ¬ (single.ledger (crowded.take 1)).Live 1 longKey := by
    rw [← holds.live_iff]
    decide +kernel
  have full : (single.ledger (crowded.take 1)).Full single.capacity 1 longKey := by
    refine ⟨dead, ?_⟩
    rw [← holds.purged_size dead]
    decide +kernel
  have answered := refused.mpr full
  revert answered
  decide +kernel

theorem answers_as_map_crowded : single.AnswersAsMap crowded :=
  (answers_as_map single crowded (by unfold Forward crowded; decide)).1

end MemoryCache

end Renvor.Cache
