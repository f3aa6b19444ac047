import Mathlib.Algebra.GroupWithZero.Nat
import Mathlib.Data.List.Sort
import Mathlib.Logic.Function.Basic
import Renvor.Foundation.Machine
import Renvor.Metrics.Registry

/-! # What the metrics account for

A call of an instrument adds to one series, and the series of an instrument add up to
what was recorded on it, as long as no sum passes sixty-four bits
(`Renvor.Metrics.accounts_iff`). At that limit the additions wrap: a counter goes down.
-/

namespace Renvor.Metrics

open Foundation

variable {Value : Type}

namespace Storage

/-- The thousandths of a counter or of a histogram's sum. -/
def amount : Storage → Nat
  | scalar cell => cell.toNat
  | histogram _ sumMilli _ => sumMilli.toNat

/-- How many observations a storage has counted. -/
def observations : Storage → Nat
  | scalar _ => 0
  | histogram _ _ count => count.toNat

/-- A storage is of its instrument's kind, and its buckets hold its observations. -/
def Formed (shape : Shape Value) : Storage → Prop
  | scalar _ => shape.kind ≠ .histogram
  | histogram buckets _ count => shape.kind = .histogram ∧
      buckets.length = shape.buckets.length + 1 ∧ (buckets.map UInt64.toNat).sum = count.toNat

end Storage

namespace Family

variable (family : Family Value)

/-- What a series holds; nothing where it is not there. -/
def amount (key : List String) : Nat := (family.series.get? key).elim 0 Storage.amount

/-- How many observations the series of a key has counted. -/
def observations (key : List String) : Nat := (family.series.get? key).elim 0 Storage.observations

/-- The series other than the overflow series. -/
def proper : List (List String × Storage) :=
  family.series.entries.filter fun entry => decide (entry.1 ≠ family.overflowKey)

end Family

/-- What was recorded on an instrument. -/
structure Recorded where
  amount : Nat
  observations : Nat
  folded : Nat

/-- An instrument's readings are what was recorded on it. -/
structure Accounted (family : Family Value) (recorded : Recorded) : Prop where
  bounded : family.proper.length ≤ family.maxSeries
  folded : family.overflowed.toNat = recorded.folded
  amount : family.shape.kind ≠ .gauge →
    (family.series.total fun _ => Storage.amount) = recorded.amount
  observations : (family.series.total fun _ => Storage.observations) = recorded.observations
  cumulative : ∀ name, ∀ series ∈ (family.snapshot name).series,
    ∀ bounds counts sumMilli count, series.value = .histogram bounds counts sumMilli count →
      counts.Pairwise (· ≤ ·) ∧ counts.getLast? = some count

/-- One series is added to, and the others stay. -/
structure Adds (before after : Family Value) (key : List String) (amount observations : Nat) :
    Prop where
  amounts : after.amount key = before.amount key + amount
  observed : after.observations key = before.observations key + observations
  others : ∀ other ≠ key, after.series.get? other = before.series.get? other

/-- A registry, and what was recorded on each of its instruments. -/
structure Books (Value : Type) where
  registry : Registry Value
  recorded : String → Recorded

section Books

variable [DecidableEq Value] (floats : Floats Value)

/-- What a call enters in the books. -/
def Books.step (books : Books Value) (call : Call Value) : Books Value where
  registry := books.registry.call floats call
  recorded := match call.record floats with
    | none => books.recorded
    | some record => match books.registry.handle record with
      | none => books.recorded
      | some family => Function.update books.recorded record.name {
          amount := (books.recorded record.name).amount + record.amount
          observations := (books.recorded record.name).observations + record.observations
          folded := (books.recorded record.name).folded + (family.place record.labels).2.toNat }

/-- A call is accounted for: every instrument afterwards, the one series it adds to, and
no counter goes down. -/
structure Accounts (books : Books Value) (call : Call Value) : Prop where
  kept : ∀ name family, (books.step floats call).registry.families.get? name = some family →
    Accounted family ((books.step floats call).recorded name)
  added : ∀ record family, call.record floats = some record → record.kind ≠ .gauge →
    books.registry.handle record = some family → ∃ key family',
      (books.step floats call).registry.families.get? record.name = some family' ∧
        Adds family family' key record.amount record.observations
  monotone : ∀ name family, books.registry.families.get? name = some family →
    family.shape.kind = .counter → ∃ family',
      (books.step floats call).registry.families.get? name = some family' ∧
        ∀ key, family.amount key ≤ family'.amount key

/-- The sums a record makes on an instrument fit in sixty-four bits. -/
structure Fitting (family : Family Value) (record : Record Value) : Prop where
  amount : record.kind ≠ .gauge →
    family.amount (family.place record.labels).1 + record.amount < 2 ^ 64
  observations :
    family.observations (family.place record.labels).1 + record.observations < 2 ^ 64
  folded : family.overflowed.toNat + (family.place record.labels).2.toNat < 2 ^ 64

/-- What is recorded stays within sixty-four bits: no cell wraps round. -/
def Fits (books : Books Value) (call : Call Value) : Prop := ∀ record family,
  call.record floats = some record → books.registry.handle record = some family →
    Fitting family record

end Books

/-! ## One storage -/

/-- What a record changes is what it records, where that fits. -/
structure Record.Exact (record : Record Value) : Prop where
  formed : ∀ shape storage, shape.kind = record.kind → storage.Formed shape →
    storage.observations + record.observations < 2 ^ 64 → (record.change shape storage).Formed shape
  amount : record.kind ≠ .gauge → ∀ shape storage, shape.kind = record.kind →
    storage.Formed shape → storage.amount + record.amount < 2 ^ 64 →
      (record.change shape storage).amount = storage.amount + record.amount
  observations : ∀ shape storage, shape.kind = record.kind → storage.Formed shape →
    storage.observations + record.observations < 2 ^ 64 →
      (record.change shape storage).observations = storage.observations + record.observations

/-- A sum that fits is the sum of the numbers. -/
theorem toNat_add_of_lt {left right : UInt64} (fits : left.toNat + right.toNat < 2 ^ 64) :
    (left + right).toNat = left.toNat + right.toNat := by
  rw [UInt64.toNat_add, Nat.mod_eq_of_lt fits]

/-- A product that fits is the product of the numbers. -/
theorem toNat_saturatingMul {left right : UInt64} (fits : left.toNat * right.toNat < 2 ^ 64) :
    (saturatingMulU64 left right).toNat = left.toNat * right.toNat := by
  unfold saturatingMulU64
  rw [Nat.min_eq_left (by omega), UInt64.toNat_ofNat_of_lt' fits]

/-- What a storage holds is a number of sixty-four bits. -/
theorem amount_lt (storage : Storage) : storage.amount < 2 ^ 64 := by
  cases storage <;> exact UInt64.toNat_lt _

/-- What a storage has counted is a number of sixty-four bits. -/
theorem observations_lt (storage : Storage) : storage.observations < 2 ^ 64 := by
  cases storage with
  | scalar cell => exact Nat.two_pow_pos 64
  | histogram => exact UInt64.toNat_lt _

/-- An empty storage has the form of its shape. -/
theorem formed_empty (shape : Shape Value) : (Storage.empty shape).Formed shape := by
  unfold Storage.empty
  split
  next same => simp [Storage.Formed, same]
  next same => simp [Storage.Formed, same]
  next same =>
    refine ⟨same, List.length_replicate, ?_⟩
    simp

/-- An empty storage holds nothing. -/
theorem amount_empty (shape : Shape Value) : (Storage.empty shape).amount = 0 := by
  unfold Storage.empty
  split <;> rfl

/-- An empty storage has counted nothing. -/
theorem observations_empty (shape : Shape Value) : (Storage.empty shape).observations = 0 := by
  unfold Storage.empty
  split <;> rfl

/-- One more in a bucket is one more in their sum, where that fits. -/
theorem sum_modify {buckets : List UInt64} {index : Nat} (within : index < buckets.length)
    (fits : (buckets.map UInt64.toNat).sum + 1 < 2 ^ 64) :
    ((buckets.modify index (· + 1)).map UInt64.toNat).sum = (buckets.map UInt64.toNat).sum + 1 := by
  induction buckets generalizing index with
  | nil => simp at within
  | cons bucket rest ih =>
      rw [List.map_cons, List.sum_cons] at fits
      cases index with
      | zero =>
          have one : (bucket + 1).toNat = bucket.toNat + 1 :=
            toNat_add_of_lt (by rw [show (1 : UInt64).toNat = 1 from rfl]; omega)
          rw [List.modify_zero_cons, List.map_cons, List.sum_cons, List.map_cons, List.sum_cons, one]
          omega
      | succ index =>
          have later := ih (Nat.lt_of_succ_lt_succ within) (by omega)
          rw [List.modify_succ_cons, List.map_cons, List.sum_cons, List.map_cons, List.sum_cons, later]
          omega

/-- The bucket of an observation is one of the buckets, the last one taking what is over all
bounds. -/
theorem findIdx_getD_le {Item : Type} (test : Item → Bool) (items : List Item) :
    (items.findIdx? test).getD items.length ≤ items.length := by
  cases found : items.findIdx? test with
  | none => exact Nat.le_refl _
  | some index =>
      obtain ⟨lt, _⟩ := List.findIdx?_eq_some_iff_getElem.mp found
      exact Nat.le_of_lt lt

/-- What a call records changes a storage by just its amount and its observations. -/
theorem record_exact {floats : Floats Value} {call : Call Value} {record : Record Value}
    (made : call.record floats = some record) : record.Exact := by
  cases call with
  | counter | gauge | histogram => cases made
  | increment name labels count =>
      cases made
      constructor
      case formed =>
        rintro shape (cell | _) _ formed _
        · exact formed
        · exact formed
      case amount =>
        rintro _ shape (cell | ⟨buckets, sumMilli, total⟩) same formed fits
        · change cell.toNat + count.toNat * 1000 < 2 ^ 64 at fits
          have product : (saturatingMulU64 count 1000).toNat = count.toNat * 1000 :=
            toNat_saturatingMul (by rw [show (1000 : UInt64).toNat = 1000 from rfl]; omega)
          change (cell + saturatingMulU64 count 1000).toNat = cell.toNat + count.toNat * 1000
          rw [toNat_add_of_lt (by rw [product]; exact fits), product]
        · cases same.symm.trans formed.1
      case observations =>
        rintro shape (cell | _) _ _ _ <;> rfl
  | set name labels value =>
      cases made
      constructor
      case formed =>
        rintro shape (cell | _) _ formed _
        · exact formed
        · exact formed
      case amount => exact fun counts => (counts rfl).elim
      case observations =>
        rintro shape (cell | _) _ _ _ <;> rfl
  | observe name labels value =>
      cases made
      constructor
      case formed =>
        rintro shape (cell | ⟨buckets, sumMilli, total⟩) same formed fits
        · exact (formed same).elim
        · obtain ⟨kind, length, sum⟩ := formed
          change total.toNat + 1 < 2 ^ 64 at fits
          have one : (total + 1).toNat = total.toNat + 1 := toNat_add_of_lt fits
          refine ⟨kind, by rw [List.length_modify, length], ?_⟩
          rw [one, ← sum]
          refine sum_modify ?_ (by omega)
          rw [length]
          exact Nat.lt_succ_of_le (findIdx_getD_le _ _)
      case amount =>
        rintro _ shape (cell | ⟨buckets, sumMilli, total⟩) same formed fits
        · exact (formed same).elim
        · exact toNat_add_of_lt fits
      case observations =>
        rintro shape (cell | ⟨buckets, sumMilli, total⟩) same formed fits
        · exact (formed same).elim
        · exact toNat_add_of_lt fits

/-! ## One instrument -/

namespace Family

variable (family : Family Value) (labels : List (String × String)) (change : Storage → Storage)

/-- The storage a label set is recorded in. -/
def target : Storage := (family.series.get? (family.place labels).1).getD (.empty family.shape)

/-- A record changes the series it is placed in and no other. -/
theorem update_series : (family.update labels change).series.get? (family.place labels).1 =
    some (change (family.target labels)) ∧ ∀ key ≠ (family.place labels).1,
      (family.update labels change).series.get? key = family.series.get? key := by
  unfold update storage target
  dsimp only
  unfold contains
  cases held : family.series.get? (family.place labels).1 with
  | some storage =>
      simp only [Option.isSome_some, if_true, held]
      exact ⟨OrderedMap.get?_insert_self .., fun key other => OrderedMap.get?_insert_of_ne other⟩
  | none =>
      simp only [Option.isSome_none, Bool.false_eq_true, if_false, OrderedMap.get?_insert_self]
      refine ⟨rfl, fun key other => ?_⟩
      rw [OrderedMap.get?_insert_of_ne other, OrderedMap.get?_insert_of_ne other]

/-- A measure that is nothing on an empty storage changes by what changes in the target. -/
theorem update_total (measure : List String → Storage → Nat) :
    (family.update labels change).series.total measure +
      (family.series.get? (family.place labels).1).elim 0 (measure (family.place labels).1) =
        family.series.total measure +
          measure (family.place labels).1 (change (family.target labels)) := by
  unfold update storage target
  dsimp only
  unfold contains
  cases held : family.series.get? (family.place labels).1 with
  | some storage =>
      simp only [Option.isSome_some, if_true, held]
      have inserted := family.series.total_insert (family.place labels).1 (change storage) measure
      rw [held] at inserted
      exact inserted
  | none =>
      simp only [Option.isSome_none, Bool.false_eq_true, if_false, OrderedMap.get?_insert_self]
      have first := family.series.total_insert (family.place labels).1 (.empty family.shape) measure
      have second := (family.series.insert (family.place labels).1 (.empty family.shape)).total_insert
        (family.place labels).1 (change (.empty family.shape)) measure
      rw [OrderedMap.get?_insert_self] at second
      rw [held] at first
      simp only [Option.elim_none, Option.elim_some, Option.getD_none] at first second ⊢
      omega

/-- A record leaves the shape alone. -/
@[simp] theorem update_shape : (family.update labels change).shape = family.shape := by
  unfold update storage
  dsimp only
  split <;> rfl

/-- A record leaves the ceiling alone. -/
@[simp] theorem update_maxSeries : (family.update labels change).maxSeries = family.maxSeries := by
  unfold update storage
  dsimp only
  split <;> rfl

/-- A record is counted as folded where it was placed in the series for the overflow. -/
theorem update_overflowed : (family.update labels change).overflowed =
    if (family.place labels).2 then family.overflowed + 1 else family.overflowed := by
  unfold update storage
  dsimp only
  split <;> rfl

/-- A record leaves the key of the overflow alone. -/
@[simp] theorem update_overflowKey :
    (family.update labels change).overflowKey = family.overflowKey := by
  simp [overflowKey]

end Family

/-- One for a key that is not the overflow series'. -/
def Family.counts (family : Family Value) (key : List String) (_ : Storage) : Nat :=
  if key = family.overflowKey then 0 else 1

/-- The series beside that of the overflow, counted. -/
theorem Family.proper_length (family : Family Value) :
    family.proper.length = family.series.total family.counts := by
  unfold proper OrderedMap.total
  induction family.series.entries with
  | nil => rfl
  | cons entry rest ih =>
      rw [List.filter_cons, List.map_cons, List.sum_cons]
      by_cases same : entry.1 = family.overflowKey
      · rw [if_neg (by simp [same]), ih, counts, if_pos same, Nat.zero_add]
      · rw [if_pos (decide_eq_true same), List.length_cons, ih, counts, if_neg same, Nat.add_comm]

/-- All series: those beside that of the overflow, and that one where it is there. -/
theorem Family.entries_length (family : Family Value) : family.series.entries.length =
    family.series.total family.counts + (family.contains family.overflowKey).toNat := by
  unfold contains
  cases held : family.series.get? family.overflowKey with
  | none =>
      have same := family.proper_length
      unfold proper at same
      rw [← same, Option.isSome_none, Bool.toNat_false, Nat.add_zero, List.filter_eq_self.mpr]
      intro entry member
      refine decide_eq_true fun equal => OrderedMap.get?_none.mp held entry.2 ?_
      rw [← equal]
      exact member
  | some storage =>
      rw [(OrderedMap.perm_of_get? held).length_eq, OrderedMap.total_of_get? held, List.length_cons]
      have ones : ∀ entry ∈ (family.series.erase family.overflowKey).entries,
          family.counts entry.1 entry.2 = (fun _ => 1) entry :=
        fun entry member => if_neg (OrderedMap.mem_erase.mp member).2
      have rest : (family.series.erase family.overflowKey).total family.counts =
          (family.series.erase family.overflowKey).entries.length := by
        unfold OrderedMap.total
        rw [List.map_congr_left ones]
        simp
      rw [rest, counts, if_pos rfl, Option.isSome_some, Bool.toNat_true, Nat.zero_add]

/-- A new series is under the cap, or the overflow series. -/
theorem Family.update_bounded (family : Family Value) (labels : List (String × String))
    (change : Storage → Storage) (bounded : family.proper.length ≤ family.maxSeries) :
    (family.update labels change).proper.length ≤ (family.update labels change).maxSeries := by
  have same : (family.update labels change).counts = family.counts := by
    funext key storage
    simp [counts]
  rw [proper_length] at bounded ⊢
  rw [same, update_maxSeries]
  have moved := family.update_total labels change family.counts
  cases held : family.series.get? (family.place labels).1 with
  | some storage =>
      rw [held, Option.elim_some] at moved
      have constant : family.counts (family.place labels).1 storage =
        family.counts (family.place labels).1 (change (family.target labels)) := rfl
      omega
  | none =>
      rw [held, Option.elim_none] at moved
      by_cases overflows : (family.place labels).1 = family.overflowKey
      · rw [counts, if_pos overflows] at moved
        omega
      · have under : family.series.total family.counts < family.maxSeries := by
          have length := family.entries_length
          unfold place at overflows held
          cases fits : family.key labels with
          | none => simp [fits] at overflows
          | some key =>
              simp only [fits] at overflows held
              split at overflows
              next contained =>
                rw [if_pos contained] at held
                unfold contains at contained
                rw [held] at contained
                cases contained
              next =>
                split at overflows
                next room => omega
                next => exact (overflows rfl).elim
        rw [counts, if_neg overflows] at moved
        omega

/-- An instrument's storages and what was recorded on it. -/
structure Sound (family : Family Value) (recorded : Recorded) : Prop where
  bounded : family.proper.length ≤ family.maxSeries
  folded : family.overflowed.toNat = recorded.folded
  amount : family.shape.kind ≠ .gauge →
    (family.series.total fun _ => Storage.amount) = recorded.amount
  observations : (family.series.total fun _ => Storage.observations) = recorded.observations
  formed : ∀ key storage, family.series.get? key = some storage → storage.Formed family.shape

/-- Buckets added up are increasing, and the last of them is the sum of all, where it fits. -/
theorem cumulate_spec {start : UInt64} {counts : List UInt64}
    (fits : start.toNat + (counts.map UInt64.toNat).sum < 2 ^ 64) :
    (∀ count ∈ cumulate start counts, start ≤ count) ∧ (cumulate start counts).Pairwise (· ≤ ·) ∧
      (((cumulate start counts).getLast?).getD start).toNat =
        start.toNat + (counts.map UInt64.toNat).sum := by
  induction counts generalizing start with
  | nil => exact ⟨nofun, .nil, rfl⟩
  | cons count rest ih =>
      rw [List.map_cons, List.sum_cons] at fits ⊢
      have added : (start + count).toNat = start.toNat + count.toNat := toNat_add_of_lt (by omega)
      have tail : (start + count).toNat + (rest.map UInt64.toNat).sum < 2 ^ 64 := by omega
      have le : start ≤ start + count := UInt64.le_iff_toNat_le.mpr (by omega)
      obtain ⟨above, sorted, last⟩ := ih tail
      refine ⟨?_, .cons above sorted, ?_⟩
      · intro other member
        obtain rfl | member := List.mem_cons.mp member
        · exact le
        · exact UInt64.le_trans le (above other member)
      · rw [cumulate, List.getLast?_cons, Option.getD_some, last, added, Nat.add_assoc]

/-- What is recorded on an instrument is what its readings say. -/
theorem Sound.accounted {family : Family Value} {recorded : Recorded}
    (sound : Sound family recorded) : Accounted family recorded where
  bounded := sound.bounded
  folded := sound.folded
  amount := sound.amount
  observations := sound.observations
  cumulative := by
    intro name series member bounds counts sumMilli count same
    obtain ⟨⟨key, storage⟩, held, rfl⟩ := List.mem_map.mp member
    have formed := sound.formed key storage (OrderedMap.get?_some.mpr held)
    cases storage with
    | scalar cell => cases same
    | histogram buckets sumMilli count =>
        cases same
        obtain ⟨_, length, sum⟩ := formed
        have small := count.toNat_lt
        have zero : (0 : UInt64).toNat = 0 := rfl
        obtain ⟨_, sorted, last⟩ := @cumulate_spec 0 buckets (by omega)
        refine ⟨sorted, ?_⟩
        cases buckets with
        | nil => cases length
        | cons bucket rest =>
            rw [cumulate, List.getLast?_cons] at last ⊢
            rw [Option.getD_some, sum, zero, Nat.zero_add] at last
            rw [UInt64.toNat_inj.mp last]

section Update

variable {family : Family Value} {recorded : Recorded} {record : Record Value}

/-- What is recorded after a call on an instrument. -/
def Recorded.plus (recorded : Recorded) (family : Family Value) (record : Record Value) : Recorded where
  amount := recorded.amount + record.amount
  observations := recorded.observations + record.observations
  folded := recorded.folded + (family.place record.labels).2.toNat

/-- The amount of one more record. -/
@[simp] theorem Recorded.plus_amount : (recorded.plus family record).amount =
    recorded.amount + record.amount := rfl

/-- The observations of one more record. -/
@[simp] theorem Recorded.plus_observations : (recorded.plus family record).observations =
    recorded.observations + record.observations := rfl

/-- One more record counts as folded where it is placed in the series for the overflow. -/
@[simp] theorem Recorded.plus_folded : (recorded.plus family record).folded =
    recorded.folded + (family.place record.labels).2.toNat := rfl

/-- The storage that a record changes has the form of the family. -/
theorem Sound.target_formed (sound : Sound family recorded) (labels : List (String × String)) :
    (family.target labels).Formed family.shape := by
  unfold Family.target
  cases held : family.series.get? (family.place labels).1 with
  | none => exact formed_empty _
  | some storage => exact sound.formed _ _ held

/-- The storage that a record changes holds what its series holds. -/
theorem Family.target_amount (family : Family Value) (labels : List (String × String)) :
    (family.target labels).amount = family.amount (family.place labels).1 := by
  unfold target amount
  cases family.series.get? (family.place labels).1 with
  | none => exact amount_empty _
  | some storage => rfl

/-- The storage that a record changes has counted what its series has. -/
theorem Family.target_observations (family : Family Value) (labels : List (String × String)) :
    (family.target labels).observations = family.observations (family.place labels).1 := by
  unfold target observations
  cases family.series.get? (family.place labels).1 with
  | none => exact observations_empty _
  | some storage => rfl

/-- What the series of a record holds afterwards. -/
theorem Family.update_amount (family : Family Value) (labels : List (String × String))
    (change : Storage → Storage) : (family.update labels change).amount (family.place labels).1 =
      (change (family.target labels)).amount := by
  unfold amount
  rw [(family.update_series labels change).1]
  rfl

/-- What the series of a record has counted afterwards. -/
theorem Family.update_observations (family : Family Value) (labels : List (String × String))
    (change : Storage → Storage) :
    (family.update labels change).observations (family.place labels).1 =
      (change (family.target labels)).observations := by
  unfold observations
  rw [(family.update_series labels change).1]
  rfl

/-- All series together change by what the series of the record does. -/
theorem Family.update_total_amount (family : Family Value) (labels : List (String × String))
    (change : Storage → Storage) :
    ((family.update labels change).series.total fun _ => Storage.amount) +
      (family.target labels).amount =
        (family.series.total fun _ => Storage.amount) + (change (family.target labels)).amount := by
  rw [target_amount]
  exact family.update_total labels change fun _ => Storage.amount

/-- All series together count on by what the series of the record does. -/
theorem Family.update_total_observations (family : Family Value)
    (labels : List (String × String)) (change : Storage → Storage) :
    ((family.update labels change).series.total fun _ => Storage.observations) +
      (family.target labels).observations = (family.series.total fun _ => Storage.observations) +
        (change (family.target labels)).observations := by
  rw [target_observations]
  exact family.update_total labels change fun _ => Storage.observations

/-- The count of what was folded goes up by the record, where it fits. -/
theorem Family.update_overflowed_toNat {family : Family Value} {labels : List (String × String)}
    {change : Storage → Storage}
    (fits : family.overflowed.toNat + (family.place labels).2.toNat < 2 ^ 64) :
    (family.update labels change).overflowed.toNat =
      family.overflowed.toNat + (family.place labels).2.toNat := by
  rw [update_overflowed]
  cases folded : (family.place labels).2 with
  | false => rfl
  | true =>
      rw [folded] at fits
      exact toNat_add_of_lt fits

/-- An update that fits adds what it records. -/
theorem Fitting.adds (fits : Fitting family record) (exact : record.Exact)
    (sound : Sound family recorded) (kind : family.shape.kind = record.kind)
    (counts : record.kind ≠ .gauge) : Adds family
      (family.update record.labels (record.change family.shape)) (family.place record.labels).1
        record.amount record.observations where
  amounts := by
    have small := fits.amount counts
    rw [← family.target_amount] at small ⊢
    rw [family.update_amount]
    exact exact.amount counts _ _ kind (sound.target_formed _) small
  observed := by
    have small := fits.observations
    rw [← family.target_observations] at small ⊢
    rw [family.update_observations]
    exact exact.observations _ _ kind (sound.target_formed _) small
  others := (family.update_series _ _).2

/-- An update that fits keeps an instrument sound. -/
theorem Fitting.sound (fits : Fitting family record) (exact : record.Exact)
    (sound : Sound family recorded) (kind : family.shape.kind = record.kind) :
    Sound (family.update record.labels (record.change family.shape))
      (recorded.plus family record) := by
  have formed := sound.target_formed record.labels
  have small := fits.observations
  rw [← family.target_observations] at small
  constructor
  case bounded => exact family.update_bounded _ _ sound.bounded
  case folded => rw [Family.update_overflowed_toNat fits.folded, sound.folded, Recorded.plus_folded]
  case amount =>
    intro counts
    rw [Family.update_shape] at counts
    have moved := family.update_total_amount record.labels (record.change family.shape)
    have fit := fits.amount (kind ▸ counts)
    rw [← family.target_amount] at fit
    rw [exact.amount (kind ▸ counts) _ _ kind formed fit, sound.amount counts] at moved
    rw [Recorded.plus_amount]
    omega
  case observations =>
    have moved := family.update_total_observations record.labels (record.change family.shape)
    rw [exact.observations _ _ kind formed small, sound.observations] at moved
    rw [Recorded.plus_observations]
    omega
  case formed =>
    intro key storage held
    rw [Family.update_shape]
    by_cases same : key = (family.place record.labels).1
    · subst same
      rw [(family.update_series _ _).1] at held
      cases held
      exact exact.formed _ _ kind formed small
    · rw [(family.update_series _ _).2 key same] at held
      exact sound.formed key storage held

/-- An update whose readings are what was recorded fits. -/
theorem Accounted.fits (sound : Sound family recorded) (kind : family.shape.kind = record.kind)
    (accounted : Accounted (family.update record.labels (record.change family.shape))
      (recorded.plus family record)) : Fitting family record where
  amount counts := by
    have moved := family.update_total_amount record.labels (record.change family.shape)
    have after := accounted.amount (by rw [Family.update_shape, kind]; exact counts)
    rw [after, sound.amount (by rw [kind]; exact counts), Recorded.plus_amount] at moved
    have small := amount_lt (record.change family.shape (family.target record.labels))
    rw [← family.target_amount]
    omega
  observations := by
    have moved := family.update_total_observations record.labels (record.change family.shape)
    rw [accounted.observations, sound.observations, Recorded.plus_observations] at moved
    have small := observations_lt (record.change family.shape (family.target record.labels))
    rw [← family.target_observations]
    omega
  folded := by
    have same := accounted.folded
    have small := (family.update record.labels (record.change family.shape)).overflowed.toNat_lt
    rw [Recorded.plus_folded] at same
    rw [sound.folded]
    omega

end Update

/-! ## The registry -/

/-- What is not added to stays, and what is added to does not go down. -/
theorem Adds.le {before after : Family Value} {key : List String} {amount observations : Nat}
    (adds : Adds before after key amount observations) (other : List String) :
    before.amount other ≤ after.amount other := by
  by_cases same : other = key
  · rw [same, adds.amounts]
    exact Nat.le_add_right _ _
  · unfold Family.amount
    rw [adds.others other same]

/-- A family in which nothing was recorded is sound. -/
theorem sound_fresh (shape : Shape Value) (maxSeries : Nat) :
    Sound ⟨shape, maxSeries, .empty, 0⟩ ⟨0, 0, 0⟩ where
  bounded := Nat.zero_le _
  folded := rfl
  amount _ := rfl
  observations := rfl
  formed _ _ held := nomatch held

/-- The instrument of a record is the family of its name, and of its kind. -/
theorem handle_some {registry : Registry Value} {record : Record Value} {family : Family Value}
    (held : registry.handle record = some family) :
    registry.families.get? record.name = some family ∧ family.shape.kind = record.kind := by
  obtain ⟨found, kind⟩ := Option.filter_eq_some_iff.mp held
  exact ⟨found, of_decide_eq_true kind⟩

section Registry

variable [DecidableEq Value] {floats : Floats Value} {books : Books Value} {call : Call Value}

/-- Every instrument is sound, and nothing was recorded on others. -/
structure Books.Sound (books : Books Value) : Prop where
  sound : ∀ name family, books.registry.families.get? name = some family →
    Metrics.Sound family (books.recorded name)
  absent : ∀ name, books.registry.families.get? name = none → books.recorded name = ⟨0, 0, 0⟩

/-- A registration leaves the instruments there are, or adds one without series. -/
theorem family_cases {registry after : Registry Value} {name : String} {shape : Shape Value}
    (registers : registry.family name shape = .ok after) : after = registry ∨
      registry.families.get? name = none ∧ after = { registry with
        families := registry.families.insert name ⟨shape, registry.maxSeries, .empty, 0⟩ } := by
  unfold Registry.family at registers
  split at registers
  next => cases registers
  next =>
    split at registers
    next => cases registers
    next =>
      split at registers
      next => cases registers
      next =>
        split at registers
        next existing held =>
          split at registers
          next =>
            cases registers
            exact .inl rfl
          next => cases registers
        next absent =>
          cases registers
          exact .inr ⟨absent, rfl⟩

/-- What a call does to the books: nothing, one more instrument, or one update. -/
theorem step_cases (floats : Floats Value) (books : Books Value) (call : Call Value) :
    (books.step floats call = books ∧
        ∀ record, call.record floats = some record → books.registry.handle record = none) ∨
    (call.record floats = none ∧ ∃ name shape, books.registry.families.get? name = none ∧
      books.step floats call = { books with registry := { books.registry with
        families := books.registry.families.insert name
          ⟨shape, books.registry.maxSeries, .empty, 0⟩ } }) ∨
    ∃ record family, call.record floats = some record ∧
      books.registry.handle record = some family ∧ books.step floats call = {
        registry := { books.registry with
          families := books.registry.families.insert record.name
            (family.update record.labels (record.change family.shape)) }
        recorded := Function.update books.recorded record.name
          ((books.recorded record.name).plus family record) } := by
  have registration : ∀ {name shape} {result : Except MetricsError (Registry Value)}, call.record floats = none →
      books.registry.call floats call = result.toOption.getD books.registry →
      (∀ after, result = .ok after → books.registry.family name shape = .ok after) →
      (books.step floats call = books ∧
        ∀ record, call.record floats = some record → books.registry.handle record = none) ∨
      (call.record floats = none ∧ ∃ name shape, books.registry.families.get? name = none ∧
        books.step floats call = { books with registry := { books.registry with
          families := books.registry.families.insert name
            ⟨shape, books.registry.maxSeries, .empty, 0⟩ } }) := by
    intro name shape result none called registers
    unfold Books.step
    rw [none, called]
    cases result with
    | error error => exact .inl ⟨rfl, nofun⟩
    | ok after =>
        obtain rfl | ⟨absent, rfl⟩ := family_cases (registers after rfl)
        · exact .inl ⟨rfl, nofun⟩
        · exact .inr ⟨rfl, name, shape, absent, rfl⟩
  have recording : ∀ {record}, call.record floats = some record →
      books.registry.call floats call = books.registry.apply record →
      (books.step floats call = books ∧
        ∀ record, call.record floats = some record → books.registry.handle record = none) ∨
      ∃ record family, call.record floats = some record ∧
        books.registry.handle record = some family ∧ books.step floats call = {
          registry := { books.registry with
            families := books.registry.families.insert record.name
              (family.update record.labels (record.change family.shape)) }
          recorded := Function.update books.recorded record.name
            ((books.recorded record.name).plus family record) } := by
    intro record made called
    unfold Books.step
    rw [made, called]
    unfold Registry.apply
    cases held : books.registry.handle record with
    | none =>
        refine .inl ⟨by simp only [held], ?_⟩
        rintro other ⟨⟩
        exact held
    | some family => exact .inr ⟨record, family, rfl, held, by simp only [held]; rfl⟩
  cases call with
  | counter name help labels =>
      exact (registration rfl rfl fun _ same => same).elim .inl (.inr ∘ .inl)
  | gauge name help labels =>
      exact (registration rfl rfl fun _ same => same).elim .inl (.inr ∘ .inl)
  | histogram name help labels buckets =>
      refine (@registration name ⟨.histogram, help, labels, buckets⟩ _ rfl rfl
        fun after same => ?_).elim .inl (.inr ∘ .inl)
      unfold Registry.histogram at same
      split at same
      next => cases same
      next => exact same
  | increment name labels count => exact (recording rfl rfl).elim .inl (.inr ∘ .inr)
  | set name labels value => exact (recording rfl rfl).elim .inl (.inr ∘ .inr)
  | observe name labels value => exact (recording rfl rfl).elim .inl (.inr ∘ .inr)

/-- A call whose sums fit keeps the books. -/
theorem Books.Sound.step (sound : books.Sound) (fits : Fits floats books call) :
    (books.step floats call).Sound := by
  obtain ⟨same, _⟩ | ⟨none, name, shape, absent, after⟩ | ⟨record, family, made, handle, after⟩ :=
    step_cases floats books call
  · rw [same]
    exact sound
  · rw [after]
    constructor
    case sound =>
      intro other family held
      by_cases same : other = name
      · subst same
        rw [OrderedMap.get?_insert_self] at held
        cases held
        rw [sound.absent other absent]
        exact sound_fresh _ _
      · rw [OrderedMap.get?_insert_of_ne same] at held
        exact sound.sound other family held
    case absent =>
      intro other held
      by_cases same : other = name
      · subst same
        exact sound.absent other absent
      · rw [OrderedMap.get?_insert_of_ne same] at held
        exact sound.absent other held
  · rw [after]
    obtain ⟨there, kind⟩ := handle_some handle
    constructor
    case sound =>
      intro other changed held
      dsimp only at held ⊢
      by_cases same : other = record.name
      · subst same
        rw [OrderedMap.get?_insert_self] at held
        cases held
        rw [Function.update_self]
        exact (fits record family made handle).sound (record_exact made)
          (sound.sound _ _ there) kind
      · rw [OrderedMap.get?_insert_of_ne same] at held
        rw [Function.update_of_ne same]
        exact sound.sound other changed held
    case absent =>
      intro other held
      dsimp only at held ⊢
      by_cases same : other = record.name
      · subst same
        rw [OrderedMap.get?_insert_self] at held
        cases held
      · rw [OrderedMap.get?_insert_of_ne same] at held
        rw [Function.update_of_ne same]
        exact sound.absent other held

/-- A call is accounted for where its sums fit, and nowhere else. -/
theorem accounts_step (sound : books.Sound) :
    Accounts floats books call ↔ Fits floats books call := by
  constructor
  · intro accounts record family made handle
    obtain ⟨there, kind⟩ := handle_some handle
    obtain ⟨_, none⟩ | ⟨none, _⟩ | ⟨record', family', made', handle', after⟩ :=
      step_cases floats books call
    · cases (none record made).symm.trans handle
    · cases none.symm.trans made
    · cases made.symm.trans made'
      cases handle.symm.trans handle'
      have kept := accounts.kept record.name
        (family.update record.labels (record.change family.shape)) (by
          rw [after]
          exact OrderedMap.get?_insert_self ..)
      rw [after] at kept
      dsimp only at kept
      rw [Function.update_self] at kept
      exact kept.fits (sound.sound _ _ there) kind
  · intro fits
    have after := sound.step fits
    constructor
    case kept => exact fun name family held => (after.sound name family held).accounted
    case added =>
      intro record family made counts handle
      obtain ⟨there, kind⟩ := handle_some handle
      obtain ⟨_, none⟩ | ⟨none, _⟩ | ⟨record', family', made', handle', after⟩ :=
        step_cases floats books call
      · cases (none record made).symm.trans handle
      · cases none.symm.trans made
      · cases made.symm.trans made'
        cases handle.symm.trans handle'
        refine ⟨_, _, ?_, (fits record family made handle).adds (record_exact made)
          (sound.sound _ _ there) kind counts⟩
        rw [after]
        exact OrderedMap.get?_insert_self ..
    case monotone =>
      intro name family held counter
      obtain ⟨same, _⟩ | ⟨_, added, _, absent, after⟩ | ⟨record, family', made, handle, after⟩ :=
        step_cases floats books call
      · rw [same]
        exact ⟨family, held, fun _ => Nat.le_refl _⟩
      · rw [after]
        refine ⟨family, ?_, fun _ => Nat.le_refl _⟩
        rw [OrderedMap.get?_insert_of_ne, held]
        rintro rfl
        cases absent.symm.trans held
      · rw [after]
        obtain ⟨there, kind⟩ := handle_some handle
        by_cases same : name = record.name
        · subst same
          cases there.symm.trans held
          refine ⟨_, OrderedMap.get?_insert_self .., ?_⟩
          refine ((fits record family made handle).adds (record_exact made)
            (sound.sound _ _ there) kind ?_).le
          rw [← kind, counter]
          nofun
        · refine ⟨family, ?_, fun _ => Nat.le_refl _⟩
          rw [OrderedMap.get?_insert_of_ne same, held]

end Registry

end Renvor.Metrics
