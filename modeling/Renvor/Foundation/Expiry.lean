import Mathlib.Data.Set.Card
import Mathlib.Logic.Function.Basic
import Renvor.Foundation.OrderedMap

/-! # Entries that run out

A ledger says what was last put under each key and until when it counts. A table
mirrors it when the two show the same from some time on, so that entries that ran
out may stay in the table or leave it. Once they have left, the table is as large
as the ledger has keys that count (`Foundation.Expiry.Mirrors.size_retain`).
-/

namespace Foundation.Expiry

variable {Key Place Value Instant : Type} [LinearOrder Place] [LinearOrder Instant]

/-- An entry, while it counts. -/
def current (now : Instant) (entry : Option (Value × Instant)) : Option (Value × Instant) :=
  entry.filter fun entry => decide (now < entry.2)

/-- What is current is an entry that has not run out. -/
theorem current_some {now : Instant} {entry : Option (Value × Instant)} {held : Value × Instant} :
    current now entry = some held ↔ entry = some held ∧ now < held.2 := by
  simp [current, Option.filter_eq_some_iff]

/-- Where there is no entry nothing is current. -/
theorem current_none (now : Instant) : current now (none : Option (Value × Instant)) = none := rfl

/-- Something is current where there is an entry that has not run out. -/
theorem isSome_current (now : Instant) (entry : Option (Value × Instant)) :
    (current now entry).isSome = entry.any fun entry => decide (now < entry.2) :=
  Option.isSome_filter

/-- What does not count at a time counts at no later one. -/
theorem current_none_later {now time : Instant} {entry : Option (Value × Instant)}
    (dead : current now entry = none) (later : now ≤ time) : current time entry = none := by
  rw [Option.eq_none_iff_forall_ne_some] at dead ⊢
  intro held counts
  obtain ⟨same, before⟩ := current_some.mp counts
  exact dead held (current_some.mpr ⟨same, later.trans_lt before⟩)

/-- The table shows what the ledger shows, from a time on. -/
structure Mirrors (embed : Key → Place) (now : Instant)
    (table : OrderedMap Place (Value × Instant)) (ledger : Key → Option (Value × Instant)) :
    Prop where
  same : ∀ time, now ≤ time → ∀ key,
    current time (table.get? (embed key)) = current time (ledger key)
  covered : ∀ entry ∈ table, ∃ key, embed key = entry.1

namespace Mirrors

variable {embed : Key → Place} {now : Instant} {table : OrderedMap Place (Value × Instant)}
  {ledger : Key → Option (Value × Instant)}

/-- An empty table mirrors a ledger without entries. -/
theorem empty (embed : Key → Place) (now : Instant) :
    Mirrors embed now (OrderedMap.empty : OrderedMap Place (Value × Instant)) fun _ => none :=
  ⟨fun _ _ _ => rfl, fun entry member => (OrderedMap.not_mem_empty entry member).elim⟩

/-- The table and the ledger show the same under every key. -/
theorem now_same (mirrors : Mirrors embed now table ledger) (key : Key) :
    current now (table.get? (embed key)) = current now (ledger key) :=
  mirrors.same now le_rfl key

/-- As time goes by the same entries run out on both sides. -/
theorem later (mirrors : Mirrors embed now table ledger) {time : Instant} (after : now ≤ time) :
    Mirrors embed time table ledger :=
  ⟨fun last reached key => mirrors.same last (after.trans reached) key, mirrors.covered⟩

/-- Entries that ran out may leave the table. -/
theorem retain (mirrors : Mirrors embed now table ledger) :
    Mirrors embed now (table.retain fun entry => decide (now < entry.2.2)) ledger := by
  refine ⟨fun time reached key => ?_, fun entry member => ?_⟩
  · rw [← mirrors.same time reached key]
    apply Option.ext
    intro held
    rw [current_some, current_some, OrderedMap.get?_some, OrderedMap.get?_some,
      OrderedMap.mem_retain, decide_eq_true_eq]
    constructor
    · exact fun ⟨⟨member, _⟩, counts⟩ => ⟨member, counts⟩
    · exact fun ⟨member, counts⟩ => ⟨⟨member, reached.trans_lt counts⟩, counts⟩
  · exact mirrors.covered entry (OrderedMap.mem_retain.mp member).1

/-- An entry that does not count may leave the table. -/
theorem erase_dead (mirrors : Mirrors embed now table ledger) (apart : Function.Injective embed)
    {key : Key} (dead : current now (ledger key) = none) :
    Mirrors embed now (table.erase (embed key)) ledger := by
  refine ⟨fun time reached other => ?_, fun entry member => ?_⟩
  · by_cases here : other = key
    · subst here
      rw [OrderedMap.get?_erase_self, current_none, current_none_later dead reached]
    · rw [OrderedMap.get?_erase_of_ne (fun same => here (apart same)), mirrors.same time reached]
  · exact mirrors.covered entry (OrderedMap.mem_erase.mp member).1

variable [DecidableEq Key]

/-- An entry put in on both sides is shown on both. -/
theorem insert (mirrors : Mirrors embed now table ledger) (apart : Function.Injective embed)
    (key : Key) (entry : Value × Instant) :
    Mirrors embed now (table.insert (embed key) entry) (Function.update ledger key (some entry)) := by
  refine ⟨fun time reached other => ?_, fun held member => ?_⟩
  · by_cases here : other = key
    · subst here
      rw [OrderedMap.get?_insert_self, Function.update_self]
    · rw [OrderedMap.get?_insert_of_ne (fun same => here (apart same)), Function.update_of_ne here,
        mirrors.same time reached]
  · rcases OrderedMap.mem_insert.mp member with same | ⟨before, _⟩
    · exact ⟨key, (congrArg Prod.fst same).symm⟩
    · exact mirrors.covered held before

/-- An entry erased on both sides is shown on neither. -/
theorem erase (mirrors : Mirrors embed now table ledger) (apart : Function.Injective embed)
    (key : Key) : Mirrors embed now (table.erase (embed key)) (Function.update ledger key none) := by
  refine ⟨fun time reached other => ?_, fun held member => ?_⟩
  · by_cases here : other = key
    · subst here
      rw [OrderedMap.get?_erase_self, Function.update_self]
    · rw [OrderedMap.get?_erase_of_ne (fun same => here (apart same)), Function.update_of_ne here,
        mirrors.same time reached]
  · exact mirrors.covered held (OrderedMap.mem_erase.mp member).1

end Mirrors

/-! ## How many count -/

/-- The keys other than one that count in the ledger. -/
def others (now : Instant) (ledger : Key → Option (Value × Instant)) (key : Key) : Set Key :=
  { other | other ≠ key ∧ (current now (ledger other)).isSome = true }

variable {embed : Key → Place} {now : Instant} {table : OrderedMap Place (Value × Instant)}
  {ledger : Key → Option (Value × Instant)}

/-- **A table swept of what ran out holds the keys that count.** -/
theorem Mirrors.size_retain (mirrors : Mirrors embed now table ledger)
    (apart : Function.Injective embed) {key : Key} (dead : current now (ledger key) = none) :
    (table.retain fun entry => decide (now < entry.2.2)).size = (others now ledger key).ncard := by
  have swept := mirrors.retain
  generalize kept : (table.retain fun entry => decide (now < entry.2.2)) = rest at swept
  have counts : ∀ entry ∈ rest, now < entry.2.2 := by
    intro entry member
    rw [← kept, OrderedMap.mem_retain] at member
    exact of_decide_eq_true member.2
  have places : embed '' others now ledger key = (rest.entries.map Prod.fst).toFinset := by
    ext place
    rw [List.coe_toFinset, Set.mem_image, Set.mem_ofPred_eq, List.mem_map]
    constructor
    · rintro ⟨other, ⟨_, counting⟩, rfl⟩
      rw [← swept.now_same other] at counting
      obtain ⟨held, found⟩ := Option.isSome_iff_exists.mp counting
      exact ⟨(embed other, held), OrderedMap.get?_some.mp (current_some.mp found).1, rfl⟩
    · rintro ⟨entry, member, rfl⟩
      obtain ⟨other, placed⟩ := swept.covered entry member
      have held : current now (rest.get? (embed other)) = some entry.2 := by
        refine current_some.mpr ⟨OrderedMap.get?_some.mpr ?_, counts entry member⟩
        rw [placed]
        exact member
      rw [swept.now_same other] at held
      refine ⟨other, ⟨?_, Option.isSome_iff_exists.mpr ⟨entry.2, held⟩⟩, placed⟩
      rintro rfl
      rw [dead] at held
      cases held
  rw [← Set.ncard_image_of_injective _ apart, places, Set.ncard_coe_finset,
    List.toFinset_card_of_nodup (rest.sorted.imp fun below => below.ne), List.length_map]
  rfl

end Foundation.Expiry
