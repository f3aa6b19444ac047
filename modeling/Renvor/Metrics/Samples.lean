import Renvor.Metrics.Accounts
import Renvor.Metrics.Rendered

/-! # The samples of a registry

What the instruments of a registry read as, and when no two of the samples have one name
and one set of labels (`Renvor.Metrics.exposition`): a histogram has samples under three
names of its own, and its buckets have a label of their own.
-/

namespace Renvor.Metrics

open Foundation

def boundLabel : List Char := "le".toList

/-- The bounds as they are written, infinity last. -/
def bucketTexts (shape : Shape Double) : List (List Char) :=
  shape.buckets.map number ++ ["+Inf".toList]

/-- One sample for a scalar; for a histogram one for each bucket, its sum and its count. -/
def Storage.samples (name : List Char) (shape : Shape Double)
    (labels : List (List Char × List Char)) : Storage → List Sample
  | scalar cell => [⟨name, labels, number (fromMilli cell)⟩]
  | histogram buckets sumMilli count =>
      List.zipWith (fun bound cumulative =>
        ⟨name ++ "_bucket".toList, labels ++ [(boundLabel, bound)], unsigned cumulative⟩)
        (bucketTexts shape) (cumulate 0 buckets) ++
      [⟨name ++ "_sum".toList, labels, number (fromMilli sumMilli)⟩,
        ⟨name ++ "_count".toList, labels, unsigned count⟩]

def Family.samples (name : String) (family : Family Double) : List Sample :=
  family.series.entries.flatMap fun series =>
    series.2.samples name.toList family.shape (spell (family.shape.labels.zip series.1))

def Registry.samples (registry : Registry Double) : List Sample :=
  registry.families.entries.flatMap fun entry => entry.2.samples entry.1

/-- One name, and one set of labels. -/
def Same (sample other : Sample) : Prop :=
  sample.name = other.name ∧ sample.labels.Perm other.labels

/-- No label is twice on a sample, and no two samples share a name and their labels. -/
structure Distinct (samples : List Sample) : Prop where
  labels : ∀ sample ∈ samples, (sample.labels.map Prod.fst).Nodup
  apart : samples.Pairwise fun sample other => ¬Same sample other

/-- What a histogram's sample adds to its name and labels: a bucket adds a bound, and the
sum and the count add none. -/
def Part (shape : Shape Double) (suffix : List Char) (extra : List (List Char × List Char)) : Prop :=
  suffix = "_bucket".toList ∧ (∃ bound ∈ bucketTexts shape, extra = [(boundLabel, bound)]) ∨
    (suffix = "_sum".toList ∨ suffix = "_count".toList) ∧ extra = []

/-- No histogram with a series has the label of its bounds, or shares the name and the
labels of one of its samples with a scalar. -/
structure Clear (registry : Registry Double) : Prop where
  bound : ∀ name family, registry.families.get? name = some family →
    family.shape.kind = .histogram → family.series.entries ≠ [] → "le" ∉ family.shape.labels
  apart : ∀ name family values storage other family' values' storage',
    registry.families.get? name = some family → family.shape.kind = .histogram →
    family.series.get? values = some storage →
    registry.families.get? other = some family' → family'.shape.kind ≠ .histogram →
    family'.series.get? values' = some storage' → ∀ suffix extra, Part family.shape suffix extra →
      other.toList = name.toList ++ suffix →
        ¬(spell (family.shape.labels.zip values) ++ extra).Perm
          (spell (family'.shape.labels.zip values'))

/-! ## What calls keep -/

def Storage.Shaped (shape : Shape Double) : Storage → Prop
  | scalar _ => shape.kind ≠ .histogram
  | histogram buckets _ _ => shape.kind = .histogram ∧ buckets.length = shape.buckets.length + 1

/-- What was accepted of an instrument. -/
structure Accepted (name : String) (shape : Shape Double) : Prop where
  name : validMetricName name = true
  labels : ∀ label ∈ shape.labels, validLabelName label = true
  distinct : shape.labels.Nodup
  bounds : ∃ values : List Binary64, shape.buckets = values.map .finite ∧
    values.Pairwise (Double.signed · < Double.signed ·)

/-- An instrument with a value for each label in every series. -/
structure Held (name : String) (family : Family Double) : Prop where
  accepted : Accepted name family.shape
  keys : ∀ values storage, family.series.get? values = some storage →
    values.length = family.shape.labels.length ∧ storage.Shaped family.shape

def AllHeld (registry : Registry Double) : Prop :=
  ∀ name family, registry.families.get? name = some family → Held name family

/-- Bounds that are finite and not unsorted increase. -/
theorem bounds_increase {buckets : List Double} (finite : buckets.any (!floats.finite ·) = false)
    (sorted : Registry.unsorted floats buckets = false) :
    ∃ values : List Binary64, buckets = values.map .finite ∧
      values.Pairwise (Double.signed · < Double.signed ·) := by
  obtain ⟨values, rfl⟩ : ∃ values : List Binary64, buckets = values.map .finite := by
    clear sorted
    induction buckets with
    | nil => exact ⟨[], rfl⟩
    | cons bucket rest ih =>
        rw [List.any_cons, Bool.or_eq_false_iff] at finite
        obtain ⟨values, rfl⟩ := ih finite.2
        cases bucket with
        | finite value => exact ⟨value :: values, rfl⟩
        | infinite => exact nomatch finite.1
        | nan => exact nomatch finite.1
  refine ⟨values, rfl, List.isChain_iff_pairwise.mp ?_⟩
  clear finite
  induction values with
  | nil => exact .nil
  | cons first rest ih =>
      cases rest with
      | nil => exact .singleton _
      | cons second later =>
          rw [List.map_cons, List.map_cons, Registry.unsorted, Bool.or_eq_false_iff] at sorted
          have less : ¬Double.signed second ≤ Double.signed first := by
            have above := sorted.1
            simpa [floats, Double.le] using above
          exact .cons_cons (by omega) (ih sorted.2)

/-- What is registered is acceptable. -/
theorem family_accepts {registry after : Registry Double} {name : String} {shape : Shape Double}
    (registers : registry.family name shape = .ok after) :
    validMetricName name = true ∧ (∀ label ∈ shape.labels, validLabelName label = true) ∧
      shape.labels.Nodup := by
  unfold Registry.family at registers
  split at registers
  next => cases registers
  next valid =>
    split at registers
    next => cases registers
    next =>
      split at registers
      next => cases registers
      next labels =>
        simp only [Bool.not_eq_true', Bool.not_eq_false, Bool.and_eq_true, List.all_eq_true,
          decide_eq_true_eq] at valid labels
        exact ⟨valid, labels.1, labels.2⟩

theorem AllHeld.register {registry after : Registry Double} {name : String} {shape : Shape Double}
    (held : AllHeld registry) (registers : registry.family name shape = .ok after)
    (bounds : ∃ values : List Binary64, shape.buckets = values.map .finite ∧
      values.Pairwise (Double.signed · < Double.signed ·)) : AllHeld after := by
  obtain ⟨valid, labels, distinct⟩ := family_accepts registers
  obtain same | ⟨_, same⟩ := family_cases registers
  · rw [same]
    exact held
  · rw [same]
    intro other family found
    by_cases here : other = name
    · rw [here, OrderedMap.get?_insert_self] at found
      cases found
      rw [here]
      exact ⟨⟨valid, labels, distinct, bounds⟩, fun _ _ none => nomatch none⟩
    · rw [OrderedMap.get?_insert_of_ne here] at found
      exact held other family found

theorem shaped_empty (shape : Shape Double) : (Storage.empty shape).Shaped shape := by
  unfold Storage.empty
  split
  next same => simp [Storage.Shaped, same]
  next same => simp [Storage.Shaped, same]
  next same => exact ⟨same, List.length_replicate⟩

/-- A recording changes numbers only. -/
theorem shaped_change {call : Call Double} {record : Record Double} {shape : Shape Double}
    {storage : Storage} (made : call.record floats = some record) (shaped : storage.Shaped shape) :
    (record.change shape storage).Shaped shape := by
  cases call with
  | counter | gauge | histogram => cases made
  | increment | set =>
      cases made
      cases storage with
      | scalar => exact shaped
      | histogram => exact shaped
  | observe =>
      cases made
      cases storage with
      | scalar => exact shaped
      | histogram => exact ⟨shaped.1, (List.length_modify ..).trans shaped.2⟩

/-- A label set's key has a value for each label. -/
theorem place_length (family : Family Double) (labels : List (String × String)) :
    (family.place labels).1.length = family.shape.labels.length := by
  have overflow : family.overflowKey.length = family.shape.labels.length := List.length_replicate
  unfold Family.place
  cases found : family.key labels with
  | none => exact overflow
  | some key =>
      have length : key.length = family.shape.labels.length := by
        unfold Family.key at found
        split at found
        next fits =>
          cases found
          rw [Bool.and_eq_true, decide_eq_true_iff] at fits
          rw [List.length_map]
          exact fits.1
        next => cases found
      simp only
      split
      · exact length
      · split
        · exact length
        · exact overflow

theorem AllHeld.apply {registry : Registry Double} {call : Call Double} {record : Record Double}
    (held : AllHeld registry) (made : call.record floats = some record) :
    AllHeld (registry.apply record) := by
  unfold Registry.apply
  cases found : registry.handle record with
  | none => exact held
  | some family =>
      obtain ⟨there, _⟩ := handle_some found
      obtain ⟨accepted, keys⟩ := held _ _ there
      intro other family' after
      by_cases here : other = record.name
      · rw [here, OrderedMap.get?_insert_self] at after
        cases after
        rw [here]
        refine ⟨by rw [Family.update_shape]; exact accepted, fun values storage stored => ?_⟩
        rw [Family.update_shape]
        by_cases placed : values = (family.place record.labels).1
        · rw [placed, (family.update_series _ _).1] at stored
          cases stored
          refine ⟨by rw [placed]; exact place_length family record.labels, ?_⟩
          refine shaped_change made ?_
          unfold Family.target
          cases earlier : family.series.get? (family.place record.labels).1 with
          | none => exact shaped_empty _
          | some storage => exact (keys _ _ earlier).2
        · rw [(family.update_series _ _).2 values placed] at stored
          exact keys values storage stored
      · rw [OrderedMap.get?_insert_of_ne here] at after
        exact held other family' after

/-- **Every call keeps what was accepted.** -/
theorem AllHeld.call {registry : Registry Double} (held : AllHeld registry) (call : Call Double) :
    AllHeld (registry.call floats call) := by
  have registered {name : String} {shape : Shape Double} {result : Except MetricsError (Registry Double)}
      (accepted : ∀ after, result = .ok after → registry.family name shape = .ok after ∧
        ∃ values : List Binary64, shape.buckets = values.map .finite ∧
          values.Pairwise (Double.signed · < Double.signed ·)) :
      AllHeld (result.toOption.getD registry) := by
    cases result with
    | error => exact held
    | ok after =>
        obtain ⟨registers, bounds⟩ := accepted after rfl
        exact held.register registers bounds
  cases call with
  | counter name help labels =>
      exact @registered name ⟨.counter, help, labels, []⟩ _ fun _ same => ⟨same, [], rfl, .nil⟩
  | gauge name help labels =>
      exact @registered name ⟨.gauge, help, labels, []⟩ _ fun _ same => ⟨same, [], rfl, .nil⟩
  | histogram name help labels buckets =>
      refine @registered name ⟨.histogram, help, labels, buckets⟩ _ fun after same => ?_
      unfold Registry.histogram at same
      split at same
      next => cases same
      next fine =>
        simp only [Bool.or_eq_true, not_or, Bool.not_eq_true] at fine
        exact ⟨same, bounds_increase fine.1.2 fine.2⟩
  | increment name labels count =>
      exact @AllHeld.apply registry (.increment name labels count) _ held rfl
  | set name labels value => exact @AllHeld.apply registry (.set name labels value) _ held rfl
  | observe name labels value =>
      exact @AllHeld.apply registry (.observe name labels value) _ held rfl

theorem allHeld_calls (cap : Option Nat) (calls : List (Call Double)) :
    AllHeld (calls.foldl (Registry.call floats) ⟨.empty, cap⟩) := by
  have kept (registry : Registry Double) (held : AllHeld registry) :
      AllHeld (calls.foldl (Registry.call floats) registry) := by
    induction calls generalizing registry with
    | nil => exact held
    | cons call rest ih => exact ih _ (held.call call)
  exact kept _ fun _ _ none => nomatch none

/-! ## The samples are what is read -/

theorem length_cumulate (cumulative : UInt64) (counts : List UInt64) :
    (cumulate cumulative counts).length = counts.length := by
  induction counts generalizing cumulative with
  | nil => rfl
  | cons count rest ih => exact congrArg Nat.succ (ih _)

/-- The buckets of bounds, and the one after them. -/
theorem zip_last {Bound Count Item : Type*} (bounds : List Bound) (counts : List Count)
    (length : counts.length = bounds.length + 1) (item : Bound → Count → Item) (last : Count → Item)
    (texts : Option Bound → Count → Item) (inner : ∀ bound count, texts (some bound) count = item bound count)
    (outer : ∀ count, texts none count = last count) :
    (bounds.zip counts).map (fun (bound, count) => item bound count) ++
      counts[bounds.length]?.toList.map last =
        List.zipWith texts (bounds.map some ++ [none]) counts := by
  induction bounds generalizing counts with
  | nil =>
      obtain ⟨count, rfl⟩ := List.length_eq_one_iff.mp length
      simp [outer]
  | cons bound rest ih =>
      cases counts with
      | nil => cases length
      | cons count others =>
          have later := ih others (Nat.succ.inj length)
          simp only [List.zip_cons_cons, List.map_cons, List.length_cons, List.cons_append,
            List.zipWith_cons_cons, inner, List.getElem?_cons_succ]
          rw [later]

theorem storage_samples {name : List Char} {shape : Shape Double} {labels : List (String × String)}
    {storage : Storage} (shaped : storage.Shaped shape) :
    seriesSamples name ⟨labels, storage.reading shape⟩ =
      storage.samples name shape (spell labels) := by
  cases storage with
  | scalar cell => rfl
  | histogram buckets sumMilli count =>
      have length : (cumulate 0 buckets).length = shape.buckets.length + 1 :=
        (length_cumulate 0 buckets).trans shaped.2
      have texts : bucketTexts shape =
          (shape.buckets.map some ++ [none]).map fun bound : Option Double =>
            bound.elim "+Inf".toList number := by
        rw [List.map_append, List.map_map]
        rfl
      have zipped := zip_last shape.buckets (cumulate 0 buckets) length
        (fun bound cumulative => (⟨name ++ "_bucket".toList,
          spell labels ++ [(boundLabel, number bound)], unsigned cumulative⟩ : Sample))
        (fun last => ⟨name ++ "_bucket".toList,
          spell labels ++ [(boundLabel, "+Inf".toList)], unsigned last⟩)
        (fun bound cumulative => ⟨name ++ "_bucket".toList,
          spell labels ++ [(boundLabel, bound.elim "+Inf".toList number)], unsigned cumulative⟩)
        (fun _ _ => rfl) fun _ => rfl
      simp only [Storage.samples, texts, List.zipWith_map_left]
      rw [← zipped]
      simp only [seriesSamples, Storage.reading, List.append_assoc]
      rfl

theorem snapshot_samples {registry : Registry Double} (held : AllHeld registry) :
    (registry.snapshot.flatMap fun family =>
      family.series.flatMap (seriesSamples family.name.toList)) = registry.samples := by
  unfold Registry.snapshot Registry.samples
  rw [List.flatMap_map]
  refine List.flatMap_congr fun (name, family) entry => ?_
  obtain ⟨_, keys⟩ := held name family (OrderedMap.get?_some.mpr entry)
  unfold Family.snapshot Family.samples
  simp only
  rw [List.flatMap_map]
  refine List.flatMap_congr fun (values, storage) stored => ?_
  exact storage_samples (keys values storage (OrderedMap.get?_some.mpr stored)).2

theorem exposable {registry : Registry Double} (held : AllHeld registry) :
    ∀ family ∈ registry.snapshot, Exposable family := by
  intro snapshot member
  obtain ⟨⟨name, family⟩, entry, rfl⟩ := List.mem_map.mp member
  obtain ⟨accepted, keys⟩ := held name family (OrderedMap.get?_some.mpr entry)
  refine ⟨accepted.name, ?_, ?_⟩
  · intro series listed label labeled
    obtain ⟨⟨values, storage⟩, _, rfl⟩ := List.mem_map.mp listed
    exact accepted.labels label.1 (List.of_mem_zip labeled).1
  · intro series listed bounds counts sumMilli count form bound bounded
    obtain ⟨⟨values, storage⟩, _, rfl⟩ := List.mem_map.mp listed
    cases storage with
    | scalar => cases form
    | histogram buckets =>
        cases form
        obtain ⟨finite, same, _⟩ := accepted.bounds
        rw [same] at bounded
        obtain ⟨value, _, rfl⟩ := List.mem_map.mp bounded
        exact ⟨value, rfl⟩

/-! ## Which samples are the same -/

/-- Lists of pairs with the same names, each once, are the same if one is a rearrangement
of the other. -/
theorem eq_of_perm {Name Value : Type*} {left right : List (Name × Value)} (perm : left.Perm right)
    (names : left.map Prod.fst = right.map Prod.fst) (once : (left.map Prod.fst).Nodup) :
    left = right := by
  induction left generalizing right with
  | nil => exact (List.nil_perm.mp perm).symm
  | cons first rest ih =>
      cases right with
      | nil => cases names
      | cons other others =>
          obtain ⟨head, tail⟩ := List.cons.inj names
          obtain ⟨absent, once⟩ := List.nodup_cons.mp once
          have same : first = other := by
            rcases List.mem_cons.mp (perm.subset List.mem_cons_self) with same | later
            · exact same
            · exact (absent (tail ▸ List.mem_map_of_mem later)).elim
          rw [same] at perm
          rw [same, ih ((List.perm_cons other).mp perm) tail once]

theorem of_mem_zipWith {First Second Item : Type*} {item : First → Second → Item}
    {left : List First} {right : List Second} {found : Item}
    (member : found ∈ List.zipWith item left right) :
    ∃ first ∈ left, ∃ second, found = item first second := by
  induction left generalizing right with
  | nil => exact nomatch member
  | cons first rest ih =>
      cases right with
      | nil => exact nomatch member
      | cons second others =>
          rcases List.mem_cons.mp member with same | later
          · exact ⟨first, List.mem_cons_self, second, same⟩
          · obtain ⟨other, held, rest⟩ := ih later
            exact ⟨other, List.mem_cons_of_mem _ held, rest⟩

theorem mem_zipWith {First Second Item : Type*} (item : First → Second → Item)
    {left : List First} {right : List Second} (length : left.length = right.length) {first : First}
    (held : first ∈ left) : ∃ second, item first second ∈ List.zipWith item left right := by
  induction left generalizing right with
  | nil => exact nomatch held
  | cons other rest ih =>
      cases right with
      | nil => cases length
      | cons second others =>
          rcases List.mem_cons.mp held with same | later
          · exact ⟨second, by rw [same]; exact List.mem_cons_self⟩
          · obtain ⟨another, found⟩ := ih (Nat.succ.inj length) later
            exact ⟨another, List.mem_cons_of_mem _ found⟩

theorem pairwise_zipWith {First Second Item : Type*} {item : First → Second → Item}
    {relation : Item → Item → Prop} {left : List First} {right : List Second} (once : left.Nodup)
    (apart : ∀ first other second another, first ≠ other →
      relation (item first second) (item other another)) :
    (List.zipWith item left right).Pairwise relation := by
  induction left generalizing right with
  | nil => exact .nil
  | cons first rest ih =>
      cases right with
      | nil => exact .nil
      | cons second others =>
          obtain ⟨absent, once⟩ := List.nodup_cons.mp once
          refine .cons (fun found member => ?_) (ih once)
          obtain ⟨other, held, another, rfl⟩ := of_mem_zipWith member
          exact apart _ _ _ _ fun same => absent (same ▸ held)

section Series

variable {name name' : List Char} {shape : Shape Double} {storage : Storage}
  {labels labels' extra extra' : List (List Char × List Char)} {suffix suffix' : List Char}

/-- The suffixes are told apart, whatever is before them. -/
theorem suffix_inj (part : Part shape suffix extra) {shape' : Shape Double}
    (part' : Part shape' suffix' extra') (same : name ++ suffix = name' ++ suffix') :
    name = name' ∧ suffix = suffix' := by
  have ends (tail tail' : List Char) (other : tail.reverse.take 2 ≠ tail'.reverse.take 2)
      (long : 2 ≤ tail.reverse.length) (long' : 2 ≤ tail'.reverse.length) :
      name ++ tail ≠ name' ++ tail' := by
    intro equal
    have reversed := congrArg (fun text => text.reverse.take 2) equal
    simp only [List.reverse_append] at reversed
    rw [List.take_append_of_le_length long, List.take_append_of_le_length long'] at reversed
    exact other reversed
  have forms : suffix = "_bucket".toList ∨ suffix = "_sum".toList ∨ suffix = "_count".toList := by
    rcases part with ⟨bucket, _⟩ | ⟨other, _⟩
    · exact .inl bucket
    · exact .inr other
  have forms' : suffix' = "_bucket".toList ∨ suffix' = "_sum".toList ∨
      suffix' = "_count".toList := by
    rcases part' with ⟨bucket, _⟩ | ⟨other, _⟩
    · exact .inl bucket
    · exact .inr other
  have equal : suffix = suffix' := by
    rcases forms with rfl | rfl | rfl <;> rcases forms' with rfl | rfl | rfl
    all_goals first
      | rfl
      | exact (ends _ _ (by decide) (by decide) (by decide) same).elim
  rw [equal] at same
  exact ⟨List.append_cancel_right same, equal⟩

variable (name labels) in
/-- The samples of a histogram's series. -/
theorem mem_histogram (shaped : storage.Shaped shape) (kind : shape.kind = .histogram) :
    (∀ sample ∈ storage.samples name shape labels, ∃ suffix extra, Part shape suffix extra ∧
      sample.name = name ++ suffix ∧ sample.labels = labels ++ extra) ∧
    ∀ suffix extra, Part shape suffix extra → ∃ value,
      ⟨name ++ suffix, labels ++ extra, value⟩ ∈ storage.samples name shape labels := by
  cases storage with
  | scalar => exact (shaped kind).elim
  | histogram buckets sumMilli count =>
      have length : (bucketTexts shape).length = (cumulate 0 buckets).length := by
        rw [length_cumulate, shaped.2]
        simp [bucketTexts]
      constructor
      · intro sample member
        rcases List.mem_append.mp member with bucket | rest
        · obtain ⟨bound, held, cumulative, rfl⟩ := of_mem_zipWith bucket
          exact ⟨_, _, .inl ⟨rfl, bound, held, rfl⟩, rfl, rfl⟩
        · rcases List.mem_cons.mp rest with sum | last
          · refine ⟨_, [], .inr ⟨.inl rfl, rfl⟩, ?_, ?_⟩
            · rw [sum]
            · rw [sum, List.append_nil]
          · refine ⟨_, [], .inr ⟨.inr rfl, rfl⟩, ?_, ?_⟩
            · rw [List.mem_singleton.mp last]
            · rw [List.mem_singleton.mp last, List.append_nil]
      · rintro suffix extra (⟨rfl, bound, held, rfl⟩ | ⟨rfl | rfl, rfl⟩)
        · obtain ⟨cumulative, found⟩ := mem_zipWith (fun bound cumulative =>
            (⟨name ++ "_bucket".toList, labels ++ [(boundLabel, bound)], unsigned cumulative⟩ :
              Sample)) length held
          exact ⟨unsigned cumulative, List.mem_append_left _ found⟩
        · rw [List.append_nil]
          exact ⟨number (fromMilli sumMilli), List.mem_append_right _ List.mem_cons_self⟩
        · rw [List.append_nil]
          exact ⟨unsigned count,
            List.mem_append_right _ (List.mem_cons_of_mem _ List.mem_cons_self)⟩

variable (name labels) in
theorem samples_scalar (shaped : storage.Shaped shape) (kind : shape.kind ≠ .histogram) :
    ∃ value, storage.samples name shape labels = [⟨name, labels, value⟩] := by
  cases storage with
  | scalar cell => exact ⟨_, rfl⟩
  | histogram => exact (kind shaped.1).elim

/-- The bounds are written in different ways. -/
theorem texts_distinct {metric : String} (accepted : Accepted metric shape) :
    (bucketTexts shape).Nodup := by
  obtain ⟨values, same, increase⟩ := accepted.bounds
  have texts : bucketTexts shape = values.map (fun value => number (.finite value)) ++
      ["+Inf".toList] := by
    rw [bucketTexts, same, List.map_map]
    rfl
  rw [texts, List.nodup_append]
  refine ⟨?_, List.nodup_singleton _, ?_⟩
  · refine List.pairwise_map.mpr (increase.imp fun less same => ?_)
    exact absurd (number_inj same) (ne_of_lt less)
  · intro text member other held
    obtain ⟨value, _, rfl⟩ := List.mem_map.mp member
    rw [List.mem_singleton.mp held]
    exact number_ne_infinity value

/-- A histogram's series has no two samples alike. -/
theorem pairwise_storage (shaped : storage.Shaped shape) (texts : (bucketTexts shape).Nodup)
    (once : ((labels ++ [(boundLabel, [])]).map Prod.fst).Nodup) :
    (storage.samples name shape labels).Pairwise fun sample other => ¬Same sample other := by
  cases storage with
  | scalar => exact List.pairwise_singleton _ _
  | histogram buckets sumMilli count =>
      have parts (bound : List Char) (held : bound ∈ bucketTexts shape) :
          Part shape "_bucket".toList [(boundLabel, bound)] := .inl ⟨rfl, bound, held, rfl⟩
      have sum : Part shape "_sum".toList [] := .inr ⟨.inl rfl, rfl⟩
      have last : Part shape "_count".toList [] := .inr ⟨.inr rfl, rfl⟩
      refine List.pairwise_append.mpr ⟨pairwise_zipWith texts ?_, ?_, ?_⟩
      · rintro bound other _ _ different ⟨_, perm⟩
        have names (bound : List Char) : (labels ++ [(boundLabel, bound)]).map Prod.fst =
            (labels ++ [(boundLabel, [])]).map Prod.fst := by simp
        have equal := eq_of_perm perm ((names bound).trans (names other).symm)
          (by rw [names]; exact once)
        exact different (Prod.mk.inj (List.cons.inj (List.append_cancel_left equal)).1).2
      · refine List.pairwise_pair.mpr ?_
        rintro ⟨same, _⟩
        exact absurd (suffix_inj sum last same).2 (by decide)
      · rintro sample member other held ⟨same, _⟩
        obtain ⟨bound, listed, cumulative, rfl⟩ := of_mem_zipWith member
        rcases List.mem_cons.mp held with rfl | held
        · exact absurd (suffix_inj (parts bound listed) sum same).2 (by decide)
        · rw [List.mem_singleton.mp held] at same
          exact absurd (suffix_inj (parts bound listed) last same).2 (by decide)

end Series

/-! ## Samples of a registry -/

section Registry

variable {name : String} {family : Family Double} {values values' : List String}
  {storage storage' : Storage}

theorem spell_names {names : List String} (length : values.length = names.length) :
    (spell (names.zip values)).map Prod.fst = names.map String.toList := by
  have fronts : (names.zip values).map Prod.fst = names :=
    List.map_fst_zip (Nat.le_of_eq length.symm)
  calc (spell (names.zip values)).map Prod.fst
      = ((names.zip values).map Prod.fst).map String.toList := by
        rw [spell, List.map_map, List.map_map]
        rfl
    _ = names.map String.toList := by rw [fronts]

theorem spell_inj {names : List String} (length : values.length = names.length)
    (length' : values'.length = names.length)
    (same : spell (names.zip values) = spell (names.zip values')) : values = values' := by
  have pairs : names.zip values = names.zip values' := by
    refine List.map_injective_iff.mpr ?_ same
    rintro ⟨first, second⟩ ⟨first', second'⟩ equal
    obtain ⟨left, right⟩ := Prod.mk.inj equal
    exact Prod.ext (String.toList_inj.mp left) (String.toList_inj.mp right)
  have backs : (names.zip values).map Prod.snd = values := List.map_snd_zip (Nat.le_of_eq length)
  have backs' : (names.zip values').map Prod.snd = values' :=
    List.map_snd_zip (Nat.le_of_eq length')
  rw [← backs, ← backs', pairs]

theorem Held.names (held : Held name family) (stored : family.series.get? values = some storage) :
    (spell (family.shape.labels.zip values)).map Prod.fst =
      family.shape.labels.map String.toList := spell_names (held.keys values storage stored).1

theorem Held.once (held : Held name family) : (family.shape.labels.map String.toList).Nodup :=
  held.accepted.distinct.map fun _ _ same => String.toList_inj.mp same

/-- The label of the bounds is not one of the others. -/
theorem once_bound (held : Held name family) (absent : "le" ∉ family.shape.labels) :
    (family.shape.labels.map String.toList ++ [boundLabel]).Nodup := by
  refine List.nodup_append.mpr ⟨held.once, List.nodup_singleton _, ?_⟩
  intro label member other here same
  obtain ⟨declared, listed, rfl⟩ := List.mem_map.mp member
  rw [List.mem_singleton.mp here] at same
  exact absent (String.toList_inj.mp same ▸ listed)

theorem part_names {shape : Shape Double} {suffix : List Char}
    {extra : List (List Char × List Char)} (part : Part shape suffix extra) :
    extra.map Prod.fst = if suffix = "_bucket".toList then [boundLabel] else [] := by
  rcases part with ⟨rfl, bound, _, rfl⟩ | ⟨rfl | rfl, rfl⟩ <;> rfl

/-- The labels of a sample are told apart by their names. -/
theorem Held.labels_once (held : Held name family)
    (absent : family.shape.kind = .histogram → "le" ∉ family.shape.labels)
    (stored : family.series.get? values = some storage) :
    ∀ sample ∈ storage.samples name.toList family.shape (spell (family.shape.labels.zip values)),
      (sample.labels.map Prod.fst).Nodup := by
  have shaped := (held.keys values storage stored).2
  intro sample member
  by_cases kind : family.shape.kind = .histogram
  · obtain ⟨suffix, extra, part, _, labels⟩ := (mem_histogram _ _ shaped kind).1 sample member
    rw [labels, List.map_append, held.names stored, part_names part]
    split
    · exact once_bound held (absent kind)
    · rw [List.append_nil]
      exact held.once
  · obtain ⟨value, only⟩ := samples_scalar name.toList
      (spell (family.shape.labels.zip values)) shaped kind
    rw [only] at member
    rw [List.mem_singleton.mp member, held.names stored]
    exact held.once

/-- Series of one instrument have no sample alike. -/
theorem Held.series_apart (held : Held name family)
    (absent : family.shape.kind = .histogram → "le" ∉ family.shape.labels)
    (stored : family.series.get? values = some storage)
    (stored' : family.series.get? values' = some storage') (different : values ≠ values') :
    ∀ sample ∈ storage.samples name.toList family.shape (spell (family.shape.labels.zip values)),
      ∀ other ∈ storage'.samples name.toList family.shape (spell (family.shape.labels.zip values')),
        ¬Same sample other := by
  obtain ⟨length, shaped⟩ := held.keys values storage stored
  obtain ⟨length', shaped'⟩ := held.keys values' storage' stored'
  rintro sample member other member' ⟨same, perm⟩
  have once := held.labels_once absent stored sample member
  by_cases kind : family.shape.kind = .histogram
  · obtain ⟨suffix, extra, part, named, labels⟩ := (mem_histogram _ _ shaped kind).1 sample member
    obtain ⟨suffix', extra', part', named', labels'⟩ := (mem_histogram _ _ shaped' kind).1 other member'
    rw [named, named'] at same
    obtain ⟨_, equal⟩ := suffix_inj part part' same
    have names : extra.map Prod.fst = extra'.map Prod.fst := by
      rw [part_names part, part_names part', equal]
    have pairs := eq_of_perm perm (by
      rw [labels, labels', List.map_append, List.map_append, held.names stored, held.names stored',
        names]) once
    rw [labels, labels'] at pairs
    have short : extra.length = extra'.length := by
      have lengths := congrArg List.length names
      rwa [List.length_map, List.length_map] at lengths
    exact different (spell_inj length length' (List.append_inj' pairs short).1)
  · obtain ⟨value, only⟩ := samples_scalar name.toList
      (spell (family.shape.labels.zip values)) shaped kind
    obtain ⟨value', only'⟩ := samples_scalar name.toList
      (spell (family.shape.labels.zip values')) shaped' kind
    rw [only] at member
    rw [only'] at member'
    rw [List.mem_singleton.mp member] at perm once
    rw [List.mem_singleton.mp member'] at perm
    exact different (spell_inj length length' (eq_of_perm perm
      ((held.names stored).trans (held.names stored').symm) once))

theorem entries_apart {Key Value : Type*} [LinearOrder Key] (map : OrderedMap Key Value) :
    map.entries.Pairwise fun entry other => entry.1 ≠ other.1 :=
  (List.pairwise_map.mp map.sorted).imp fun less => ne_of_lt less

variable {registry : Registry Double}

/-- A histogram's samples are not a scalar's. -/
theorem Clear.scalar_apart (clear : Clear registry) (held : AllHeld registry) {other : String}
    {family' : Family Double} (found : registry.families.get? name = some family)
    (kind : family.shape.kind = .histogram) (stored : family.series.get? values = some storage)
    (found' : registry.families.get? other = some family') (kind' : family'.shape.kind ≠ .histogram)
    (stored' : family'.series.get? values' = some storage') :
    ∀ sample ∈ storage.samples name.toList family.shape (spell (family.shape.labels.zip values)),
      ∀ sample' ∈ storage'.samples other.toList family'.shape
        (spell (family'.shape.labels.zip values')), ¬Same sample sample' := by
  have shaped := ((held _ _ found).keys _ _ stored).2
  have shaped' := ((held _ _ found').keys _ _ stored').2
  rintro sample inner sample' inner' ⟨same, perm⟩
  obtain ⟨suffix, extra, part, named, labels⟩ := (mem_histogram _ _ shaped kind).1 sample inner
  obtain ⟨value, only⟩ := samples_scalar other.toList
    (spell (family'.shape.labels.zip values')) shaped' kind'
  rw [only] at inner'
  rw [List.mem_singleton.mp inner'] at same perm
  rw [named] at same
  rw [labels] at perm
  exact clear.apart _ _ _ _ _ _ _ _ found kind stored found' kind' stored' suffix extra part
    same.symm perm

/-- The samples of two instruments of one kind have different names. -/
theorem names_apart {other : String} {family' : Family Double} (held : Held name family)
    (held' : Held other family') (different : name ≠ other)
    (alike : family.shape.kind = .histogram ↔ family'.shape.kind = .histogram)
    (stored : family.series.get? values = some storage)
    (stored' : family'.series.get? values' = some storage') :
    ∀ sample ∈ storage.samples name.toList family.shape (spell (family.shape.labels.zip values)),
      ∀ sample' ∈ storage'.samples other.toList family'.shape
        (spell (family'.shape.labels.zip values')), ¬Same sample sample' := by
  have shaped := (held.keys _ _ stored).2
  have shaped' := (held'.keys _ _ stored').2
  rintro sample inner sample' inner' ⟨same, _⟩
  by_cases kind : family.shape.kind = .histogram
  · obtain ⟨_, _, part, named, _⟩ := (mem_histogram _ _ shaped kind).1 sample inner
    obtain ⟨_, _, part', named', _⟩ := (mem_histogram _ _ shaped' (alike.mp kind)).1 sample' inner'
    rw [named, named'] at same
    exact different (String.toList_inj.mp (suffix_inj part part' same).1)
  · obtain ⟨value, only⟩ := samples_scalar name.toList
      (spell (family.shape.labels.zip values)) shaped kind
    obtain ⟨value', only'⟩ := samples_scalar other.toList
      (spell (family'.shape.labels.zip values')) shaped' fun kind' => kind (alike.mpr kind')
    rw [only] at inner
    rw [only'] at inner'
    rw [List.mem_singleton.mp inner, List.mem_singleton.mp inner'] at same
    exact different (String.toList_inj.mp same)

/-- The samples of an instrument are told apart. -/
theorem Held.samples_apart (held : Held name family)
    (absent : family.shape.kind = .histogram → family.series.entries ≠ [] →
      "le" ∉ family.shape.labels) :
    (family.samples name).Pairwise fun sample other => ¬Same sample other := by
  refine List.pairwise_flatMap.mpr ⟨fun series stored => ?_, ?_⟩
  · have found := OrderedMap.get?_some.mpr stored
    have shaped := (held.keys _ _ found).2
    by_cases kind : family.shape.kind = .histogram
    · refine pairwise_storage shaped (texts_distinct held.accepted) ?_
      rw [List.map_append, held.names found]
      exact once_bound held (absent kind (List.ne_nil_of_mem stored))
    · obtain ⟨value, only⟩ := samples_scalar name.toList
        (spell (family.shape.labels.zip series.1)) shaped kind
      rw [only]
      exact List.pairwise_singleton _ _
  · refine (entries_apart family.series).imp_of_mem fun {series other} stored stored' different => ?_
    exact held.series_apart (fun kind => absent kind (List.ne_nil_of_mem stored))
      (OrderedMap.get?_some.mpr stored) (OrderedMap.get?_some.mpr stored') different

/-- Where nothing is shared, the samples are told apart. -/
theorem Clear.distinct (clear : Clear registry) (held : AllHeld registry) :
    Distinct registry.samples := by
  constructor
  · intro sample member
    obtain ⟨entry, listed, inner⟩ := List.mem_flatMap.mp member
    obtain ⟨series, stored, inmost⟩ := List.mem_flatMap.mp inner
    have found := OrderedMap.get?_some.mpr listed
    exact (held _ _ found).labels_once
      (fun kind => clear.bound _ _ found kind (List.ne_nil_of_mem stored))
      (OrderedMap.get?_some.mpr stored) sample inmost
  · refine List.pairwise_flatMap.mpr ⟨fun entry listed => ?_, ?_⟩
    · have found := OrderedMap.get?_some.mpr listed
      exact (held _ _ found).samples_apart (clear.bound _ _ found)
    · refine (entries_apart registry.families).imp_of_mem
        fun {entry other} listed listed' different => ?_
      intro sample member sample' member'
      have found := OrderedMap.get?_some.mpr listed
      have found' := OrderedMap.get?_some.mpr listed'
      obtain ⟨series, stored, inner⟩ := List.mem_flatMap.mp member
      obtain ⟨series', stored', inner'⟩ := List.mem_flatMap.mp member'
      have get := OrderedMap.get?_some.mpr stored
      have get' := OrderedMap.get?_some.mpr stored'
      by_cases kind : entry.2.shape.kind = .histogram <;>
        by_cases kind' : other.2.shape.kind = .histogram
      · exact names_apart (held _ _ found) (held _ _ found') different (iff_of_true kind kind')
          get get' sample inner sample' inner'
      · exact clear.scalar_apart held found kind get found' kind' get' sample inner sample' inner'
      · intro same
        exact clear.scalar_apart held found' kind' get' found kind get sample' inner' sample inner
          ⟨same.1.symm, same.2.symm⟩
      · exact names_apart (held _ _ found) (held _ _ found') different (iff_of_false kind kind')
          get get' sample inner sample' inner'

/-- Where the samples are told apart, nothing is shared. -/
theorem Distinct.clear (distinct : Distinct registry.samples) (held : AllHeld registry) :
    Clear registry := by
  have member {name : String} {family : Family Double} {values : List String} {storage : Storage}
      (found : registry.families.get? name = some family)
      (stored : family.series.get? values = some storage) {sample : Sample}
      (inner : sample ∈ storage.samples name.toList family.shape
        (spell (family.shape.labels.zip values))) : sample ∈ family.samples name :=
    List.mem_flatMap.mpr ⟨(values, storage), OrderedMap.get?_some.mp stored, inner⟩
  constructor
  · intro name family found kind filled inside
    obtain ⟨⟨values, storage⟩, stored⟩ := List.exists_mem_of_ne_nil _ filled
    have get := OrderedMap.get?_some.mpr stored
    have own := held _ _ found
    obtain ⟨value, bucket⟩ := (mem_histogram _ _ (own.keys _ _ get).2 kind).2 "_bucket".toList
      [(boundLabel, "+Inf".toList)]
      (.inl ⟨rfl, "+Inf".toList, List.mem_append_right _ (List.mem_singleton.mpr rfl), rfl⟩)
    have once := distinct.labels _ (List.mem_flatMap.mpr
      ⟨(name, family), OrderedMap.get?_some.mp found, member found get bucket⟩)
    rw [List.map_append, own.names get, List.nodup_append] at once
    exact once.2.2 _ (List.mem_map_of_mem inside) _ (List.mem_singleton.mpr rfl) rfl
  · intro name family values storage other family' values' storage' found kind stored found' kind'
      stored' suffix extra part named perm
    obtain ⟨value, inner⟩ := (mem_histogram name.toList (spell (family.shape.labels.zip values))
      ((held _ _ found).keys _ _ stored).2 kind).2 suffix extra part
    obtain ⟨value', only⟩ := samples_scalar other.toList
      (spell (family'.shape.labels.zip values')) ((held _ _ found').keys _ _ stored').2 kind'
    have symmetric : Std.Symm fun entry entry' : String × Family Double =>
        ∀ sample ∈ entry.2.samples entry.1, ∀ sample' ∈ entry'.2.samples entry'.1,
          ¬Same sample sample' :=
      ⟨fun _ _ apart sample member sample' member' same =>
        apart sample' member' sample member ⟨same.1.symm, same.2.symm⟩⟩
    have apart := (List.pairwise_flatMap.mp distinct.apart).2.forall
      (OrderedMap.get?_some.mp found) (OrderedMap.get?_some.mp found') (by
        intro same
        cases same
        exact kind' kind)
    exact apart _ (member found stored inner) _
      (member found' stored' (by rw [only]; exact List.mem_singleton.mpr rfl)) ⟨named.symm, perm⟩

/-- **The exposition of a registry** that any calls have made. It is read as one sample
for every scalar series and one for each bucket, the sum and the count of every
histogram series, each with the instrument's labels and their values. No two of these
share a name and labels, and no label is twice on one, just where no histogram has a
label named as its bounds' is or a sample that a scalar has too. -/
theorem exposition (cap : Option Nat) (calls : List (Call Double)) :
    let registry := calls.foldl (Registry.call floats) ⟨.empty, cap⟩
    parse (render registry.snapshot) = some registry.samples ∧
      (∀ name family values storage, registry.families.get? name = some family →
        family.series.get? values = some storage →
          (family.shape.labels.zip values).unzip = (family.shape.labels, values)) ∧
      (Distinct registry.samples ↔ Clear registry) := by
  have held := allHeld_calls cap calls
  refine ⟨?_, ?_, fun distinct => distinct.clear held, fun clear => clear.distinct held⟩
  · rw [parse_render (exposable held), snapshot_samples held]
  · intro name family values storage found stored
    exact List.unzip_zip ((held name family found).keys values storage stored).1.symm

/-- A counter that is named as a histogram's count. -/
def overlapping : List (Call Double) :=
  [.histogram "x" "sizes" [] [.finite ⟨false, 0, by decide⟩], .counter "x_count" "calls" [],
    .observe "x" [] (.finite ⟨false, 0, by decide⟩), .increment "x_count" [] 1]

/-- Both are exposed under one name, with no labels. -/
theorem count_twice :
    let registry := overlapping.foldl (Registry.call floats) Registry.new
    parse (render registry.snapshot) = some registry.samples ∧ ¬Distinct registry.samples := by
  have held : AllHeld (overlapping.foldl (Registry.call floats) Registry.new) :=
    allHeld_calls none overlapping
  refine ⟨by rw [← snapshot_samples held]; exact parse_render (exposable held), fun distinct => ?_⟩
  have clear := distinct.clear held
  generalize made : overlapping.foldl (Registry.call floats) Registry.new = registry at clear
  have histogram : (registry.families.get? "x").map (fun family =>
      (family.shape.kind, family.shape.labels, (family.series.get? []).isSome)) =
        some (.histogram, [], true) := by
    rw [← made]
    decide +kernel
  have counter : (registry.families.get? "x_count").map (fun family =>
      (family.shape.kind, family.shape.labels, (family.series.get? []).isSome)) =
        some (.counter, [], true) := by
    rw [← made]
    decide +kernel
  obtain ⟨family, found, same⟩ := Option.map_eq_some_iff.mp histogram
  obtain ⟨family', found', same'⟩ := Option.map_eq_some_iff.mp counter
  obtain ⟨kind, labels, series⟩ : _ ∧ _ ∧ _ := by simpa using same
  obtain ⟨kind', labels', series'⟩ : _ ∧ _ ∧ _ := by simpa using same'
  obtain ⟨storage, stored⟩ := Option.isSome_iff_exists.mp series
  obtain ⟨storage', stored'⟩ := Option.isSome_iff_exists.mp series'
  refine clear.apart "x" family [] storage "x_count" family' [] storage' found kind stored found'
    (by rw [kind']; decide) stored' "_count".toList [] (.inr ⟨.inr rfl, rfl⟩) (by decide) ?_
  rw [labels, labels']
  exact .refl _

end Registry

end Renvor.Metrics
