import Renvor.Foundation.TransitionSystem
import Renvor.Generate.Migration

/-! # Whose version a migration is given

A name that another name ends in is taken for it: the pair planned is then of the
other migration. Without such a file, and without half a pair, the version is the
pair's own or a free one; and no two migrations come to share a version in any run
(`Renvor.Generate.version_for_iff`).
-/

namespace Renvor.Generate

open Foundation

/-- What a migration's file is called without its version and its way. -/
def stem (rest : List Char) : List Char :=
  ((stripSuffix upSuffix.toList rest).orElse fun _ => stripSuffix downSuffix.toList rest).getD rest

/-- The version and the name of a migration's file. -/
def migrationOf (file : String) : Option (String × String) :=
  (versionAndRest file).map fun parts => (parts.1, String.ofList (stem parts.2))

/-- Both files of a pair are there. -/
def Pair (files : List String) (name version : String) : Prop :=
  isVersion version.toList = true ∧ fileOf version name upSuffix ∈ files ∧
    fileOf version name downSuffix ∈ files

instance (files : List String) (name version : String) : Decidable (Pair files name version) :=
  inferInstanceAs (Decidable (_ ∧ _ ∧ _))

/-- A version is the one a name should get: that of its pair, or the first free one. -/
def Sound (files : List String) (name : String) (now : Nat) (version : String) : Prop :=
  ((∃ held, Pair files name held) → Pair files name version) ∧
  ((¬ ∃ held, Pair files name held) → version ∉ existingVersions files ∧
    ∃ waited, version = utcVersion (now + waited) ∧
      ∀ less < waited, utcVersion (now + less) ∈ existingVersions files)

/-- What is planned is no file of another name's migration. -/
def Own (files : List String) (name : String) (planned : List String) : Prop :=
  ∀ file ∈ planned, file ∈ files → ∃ version, migrationOf file = some (version, name)

/-- The first of the files that end as a name's forward file is half of the name's pair. -/
def FirstIsPair (files : List String) (name : String) : Prop :=
  ∀ before, fileOf before name upSuffix ∈ files →
    (∀ other, fileOf other name upSuffix ∈ files → before ≤ other) → Pair files name before

/-- Migrations of one version are of one name. -/
def Apart (files : List String) : Prop :=
  ∀ first ∈ files, ∀ second ∈ files, ∀ version name other,
    migrationOf first = some (version, name) → migrationOf second = some (version, other) →
    name = other

/-! ## The names of files -/

theorem toList_fileOf (version name way : String) :
    (fileOf version name way).toList =
      version.toList ++ '_' :: (name.toList ++ way.toList) := by
  simp [fileOf, String.toList_append]

theorem underscore_not_mem {version : List Char} (digits : isVersion version = true) :
    '_' ∉ version := by
  intro member
  simp only [isVersion, Bool.and_eq_true, List.all_eq_true] at digits
  exact absurd (digits.2 '_' member) (by decide)

theorem stem_up (name : List Char) : stem (name ++ upSuffix.toList) = name := by
  unfold stem
  rw [stripSuffix_some.mpr rfl]
  rfl

theorem stem_down (name : List Char) : stem (name ++ downSuffix.toList) = name := by
  have other : stripSuffix upSuffix.toList (name ++ downSuffix.toList) = none := by
    rw [Option.eq_none_iff_forall_ne_some]
    intro front stripped
    have same : (name ++ ['.', 'd']) ++ "own.sql".toList = front ++ upSuffix.toList := by
      rw [← stripSuffix_some.mp stripped, List.append_assoc]
      rfl
    have ends := (List.append_inj' same (by decide)).2
    exact absurd ends (by decide)
  unfold stem
  rw [other, stripSuffix_some.mpr rfl]
  rfl

/-- Both files of a pair are one migration's, or of none. -/
theorem migrationOf_ways (version name : String) :
    migrationOf (fileOf version name upSuffix) = migrationOf (fileOf version name downSuffix) := by
  have told : ∀ front back, '_' ∉ front →
      version.toList ++ '_' :: name.toList = front ++ '_' :: back →
      migrationOf (fileOf version name upSuffix) =
        migrationOf (fileOf version name downSuffix) := by
    intro front back absent same
    have split : ∀ way : String, (fileOf version name way).toList =
        front ++ '_' :: (back ++ way.toList) := by
      intro way
      rw [toList_fileOf, ← List.cons_append, ← List.append_assoc, same]
      simp
    unfold migrationOf versionAndRest
    rw [split, split, splitOnce_cons absent, splitOnce_cons absent]
    dsimp only
    rw [List.isSuffixOf_iff_suffix.mpr (List.suffix_append back upSuffix.toList),
      List.isSuffixOf_iff_suffix.mpr (List.suffix_append back downSuffix.toList), Bool.true_or,
      Bool.or_true]
    cases isVersion front with
    | false => rfl
    | true =>
        rw [Bool.and_self, if_pos rfl, if_pos rfl, Option.map_some, Option.map_some, stem_up,
          stem_down]
  by_cases member : '_' ∈ version.toList
  · obtain ⟨front, back, whole, absent⟩ := List.eq_append_cons_of_mem member
    refine told front (back ++ '_' :: name.toList) absent ?_
    rw [whole]
    simp
  · exact told version.toList name.toList member rfl

theorem migrationOf_fileOf {version : String} (digits : isVersion version.toList = true)
    (name : String) : migrationOf (fileOf version name upSuffix) = some (version, name) := by
  unfold migrationOf versionAndRest
  rw [toList_fileOf, splitOnce_cons (underscore_not_mem digits)]
  dsimp only
  rw [List.isSuffixOf_iff_suffix.mpr (List.suffix_append name.toList upSuffix.toList), digits,
    Bool.true_or, Bool.and_self, if_pos rfl, Option.map_some, stem_up, String.ofList_toList,
    String.ofList_toList]

theorem mem_existingVersions {files : List String} {version : String} :
    version ∈ existingVersions files ↔ ∃ file ∈ files, ∃ name,
      migrationOf file = some (version, name) := by
  unfold existingVersions versionOf migrationOf
  rw [List.mem_filterMap]
  refine exists_congr fun file => and_congr_right fun _ => ?_
  cases versionAndRest file with
  | none => simp
  | some parts => simp [Prod.ext_iff]

/-! ## The version before a name -/

theorem mem_found {files : List String} {name before : String} :
    before ∈ (files.filterMap fun file =>
      (stripSuffix ("_" ++ name ++ upSuffix).toList file.toList).map String.ofList) ↔
    fileOf before name upSuffix ∈ files := by
  have ending : ("_" ++ name ++ upSuffix).toList = '_' :: (name.toList ++ upSuffix.toList) := by
    simp [String.toList_append]
  rw [List.mem_filterMap, ending]
  constructor
  · rintro ⟨file, listed, stripped⟩
    obtain ⟨front, strip, rfl⟩ := Option.map_eq_some_iff.mp stripped
    have same : fileOf (String.ofList front) name upSuffix = file := by
      rw [← String.toList_inj, toList_fileOf, stripSuffix_some.mp strip, String.toList_ofList]
    rw [same]
    exact listed
  · intro listed
    refine ⟨_, listed, Option.map_eq_some_iff.mpr ⟨before.toList, ?_, String.ofList_toList⟩⟩
    exact stripSuffix_some.mpr (toList_fileOf before name upSuffix)

theorem existingVersion_some {files : List String} {name before : String} :
    existingVersion files name = some before ↔ fileOf before name upSuffix ∈ files ∧
      ∀ other, fileOf other name upSuffix ∈ files → before ≤ other := by
  unfold existingVersion
  simp only [← mem_found]
  generalize (files.filterMap fun file =>
    (stripSuffix ("_" ++ name ++ upSuffix).toList file.toList).map String.ofList) = found
  have sorted := List.pairwise_insertionSort (· ≤ ·) found
  have members : ∀ version, version ∈ found.insertionSort (· ≤ ·) ↔ version ∈ found :=
    fun version => List.mem_insertionSort (· ≤ ·)
  generalize found.insertionSort (· ≤ ·) = ordered at sorted members
  simp only [← members]
  cases ordered with
  | nil => exact iff_of_false (by simp) fun both => (List.not_mem_nil both.1).elim
  | cons least rest =>
      have before_all := (List.pairwise_cons.mp sorted).1
      constructor
      · intro first
        cases first
        refine ⟨List.mem_cons_self, fun other member => ?_⟩
        obtain rfl | later := List.mem_cons.mp member
        · exact le_refl _
        · exact before_all other later
      · rintro ⟨member, below⟩
        obtain rfl | later := List.mem_cons.mp member
        · rfl
        · exact congrArg some (le_antisymm (before_all before later) (below least List.mem_cons_self))

theorem existingVersion_none {files : List String} {name : String}
    (missing : existingVersion files name = none) (version : String) :
    fileOf version name upSuffix ∉ files := by
  intro listed
  unfold existingVersion at missing
  rw [List.head?_eq_none_iff] at missing
  have member := (List.mem_insertionSort (· ≤ ·)).mpr (mem_found.mpr listed)
  rw [missing] at member
  cases member

/-- What a version for a name is. -/
theorem versionFor_cases {listing : Listing} {files : List String} {name version : String}
    {clock : Int} (read : listing.read = .ok files)
    (given : versionFor listing name clock = .ok version) :
    existingVersion files name = some version ∨
      (existingVersion files name = none ∧
        version = allocateVersion (existingVersions files) clock.toNat) := by
  unfold versionFor at given
  rw [read] at given
  dsimp only [bind, Except.bind] at given
  cases found : existingVersion files name with
  | some held =>
      rw [found] at given
      cases given
      exact .inl rfl
  | none =>
      rw [found] at given
      dsimp only at given
      split at given
      next => cases given
      next =>
        cases given
        exact .inr ⟨rfl, rfl⟩

/-! ## The version is the name's own -/

/-- **A version is the name's own exactly where the first file that ends as its forward
file is half of its pair.** -/
theorem versionFor_own_iff {listing : Listing} {files : List String} {name version : String}
    {clock : Int} (read : listing.read = .ok files)
    (given : versionFor listing name clock = .ok version) :
    (Sound files name clock.toNat version ∧ Own files name (plannedPair version name)) ↔
      FirstIsPair files name := by
  obtain found | ⟨missing, rfl⟩ := versionFor_cases read given
  · obtain ⟨listed, least⟩ := existingVersion_some.mp found
    constructor
    · rintro ⟨⟨kept, fresh⟩, _⟩ before member below
      have first : before = version := le_antisymm (below version listed) (least before member)
      subst first
      by_cases pair : ∃ held, Pair files name held
      · exact kept pair
      · obtain ⟨free, waited, told, _⟩ := fresh pair
        have digits : isVersion before.toList = true := by
          rw [told]
          exact isVersion_utcVersion _
        exact (free (mem_existingVersions.mpr
          ⟨_, listed, name, migrationOf_fileOf digits name⟩)).elim
    · intro first
      have pair := first version listed least
      refine ⟨⟨fun _ => pair, fun none => (none ⟨version, pair⟩).elim⟩, fun file planned _ => ?_⟩
      have up := migrationOf_fileOf pair.1 name
      simp only [plannedPair, List.mem_cons, List.not_mem_nil, or_false] at planned
      obtain rfl | rfl := planned
      · exact ⟨version, up⟩
      · exact ⟨version, (migrationOf_ways version name) ▸ up⟩
  · obtain ⟨waited, told, free, before⟩ :=
      allocateVersion_first (existingVersions files) clock.toNat
    refine iff_of_true ⟨⟨?_, fun _ => ?_⟩, ?_⟩ ?_
    · rintro ⟨held, pair⟩
      exact (existingVersion_none missing held pair.2.1).elim
    · rw [told]
      exact ⟨free, waited, rfl, before⟩
    · intro file planned listed
      have up := @migrationOf_fileOf (allocateVersion (existingVersions files) clock.toNat)
        (told ▸ isVersion_utcVersion _) name
      refine (free (told ▸ mem_existingVersions.mpr ⟨file, listed, name, ?_⟩)).elim
      simp only [plannedPair, List.mem_cons, List.not_mem_nil, or_false] at planned
      obtain rfl | rfl := planned
      · exact up
      · exact (migrationOf_ways _ name) ▸ up
    · intro before listed
      exact (existingVersion_none missing before listed).elim

/-! ## Runs of the generator -/

/-- A set of migrations the framework ships. -/
structure MigrationSet where
  files : List String
  apart : Apart files

inductive Request
  | named (name : MigrationName) (clock : Int)
  | imported (set : MigrationSet)

/-- The files a request plans below `migrations/`. -/
def plan (listing : Listing) : Request → Except MigrationFault (List String)
  | .named name clock => do
      let version ← versionFor listing name.text clock
      return plannedPair version name.text
  | .imported set => do
      let files ← listing.read
      match collidingVersions files set.files with
      | [] => return set.files
      | collisions => throw (.generationConflict collisions)

/-- The directory as the generator changes it: some of what is planned is added to
what is there. -/
def directory : TransitionSystem (List String) Request where
  Initial := Apart
  Step files request after := ∃ listing planned, listing.read = .ok files ∧
    plan listing request = .ok planned ∧ files ⊆ after ∧ after ⊆ files ++ planned

theorem Apart.subset {files others : List String} (apart : Apart files) (within : others ⊆ files) :
    Apart others :=
  fun first member second also => apart first (within member) second (within also)

/-- Two groups of migrations are apart together when they are apart in each and across. -/
theorem Apart.append {files others : List String} (apart : Apart files) (also : Apart others)
    (across : ∀ first ∈ files, ∀ second ∈ others, ∀ version name other,
      migrationOf first = some (version, name) → migrationOf second = some (version, other) →
      name = other) : Apart (files ++ others) := by
  intro first member second listed version name other named called
  rcases List.mem_append.mp member with here | there
  · rcases List.mem_append.mp listed with inside | outside
    · exact apart first here second inside version name other named called
    · exact across first here second outside version name other named called
  · rcases List.mem_append.mp listed with inside | outside
    · exact (across second inside first there version other name called named).symm
    · exact also first there second outside version name other named called

theorem apart_pair (version name : String) : Apart (plannedPair version name) := by
  have same : ∀ file ∈ plannedPair version name,
      migrationOf file = migrationOf (fileOf version name upSuffix) := by
    intro file planned
    simp only [plannedPair, List.mem_cons, List.not_mem_nil, or_false] at planned
    obtain rfl | rfl := planned
    · rfl
    · exact (migrationOf_ways version name).symm
  intro first member second also held one other named called
  rw [same first member] at named
  rw [same second also, named] at called
  exact (Prod.ext_iff.mp (Option.some.inj called)).2

/-- A pair for a name shares no version with what is there. -/
theorem apart_named {listing : Listing} {files : List String} {name version : String}
    {clock : Int} (read : listing.read = .ok files) (apart : Apart files)
    (given : versionFor listing name clock = .ok version) :
    Apart (files ++ plannedPair version name) := by
  refine apart.append (apart_pair version name) fun first member second planned held one other
    named called => ?_
  have up : migrationOf (fileOf version name upSuffix) = some (held, other) := by
    simp only [plannedPair, List.mem_cons, List.not_mem_nil, or_false] at planned
    obtain rfl | rfl := planned
    · exact called
    · exact (migrationOf_ways version name).trans called
  obtain found | ⟨_, rfl⟩ := versionFor_cases read given
  · exact apart first member _ (existingVersion_some.mp found).1 held one other named up
  · obtain ⟨waited, told, free, _⟩ :=
      allocateVersion_first (existingVersions files) clock.toNat
    rw [told, migrationOf_fileOf (isVersion_utcVersion _)] at up
    have same : utcVersion (clock.toNat + waited) = held :=
      (Prod.ext_iff.mp (Option.some.inj up)).1
    rw [← same] at named
    exact (free (mem_existingVersions.mpr ⟨first, member, one, named⟩)).elim

theorem apart_imported {files : List String} {set : MigrationSet} (apart : Apart files)
    (clear : collidingVersions files set.files = []) : Apart (files ++ set.files) := by
  refine apart.append set.apart fun first member second listed version name other named called => ?_
  by_cases there : second ∈ files
  · exact apart first member second there version name other named called
  · have collides : version ∈ collidingVersions files set.files := by
      unfold collidingVersions
      rw [List.mem_dedup, List.mem_filterMap]
      have versioned : versionOf second = some version := by
        have parts := congrArg (Option.map Prod.fst) called
        simpa [migrationOf, versionOf, Option.map_map, Function.comp_def] using parts
      refine ⟨second, listed, ?_⟩
      rw [versioned, Option.filter_some, if_pos]
      exact decide_eq_true ⟨mem_existingVersions.mpr ⟨first, member, name, named⟩, there⟩
    rw [clear] at collides
    cases collides

/-- **No request makes two migrations share a version.** -/
theorem apart_step {files after : List String} {request : Request} (apart : Apart files)
    (step : directory.Step files request after) : Apart after := by
  obtain ⟨listing, planned, read, plans, _, within⟩ := step
  refine Apart.subset ?_ within
  cases request with
  | named name clock =>
      dsimp only [plan] at plans
      cases given : versionFor listing name.text clock with
      | error fault =>
          rw [given] at plans
          cases plans
      | ok version =>
          rw [given] at plans
          cases plans
          exact apart_named read apart given
  | imported set =>
      dsimp only [plan] at plans
      rw [read] at plans
      change (match collidingVersions files set.files with
        | [] => Except.ok set.files
        | collisions => Except.error (MigrationFault.generationConflict collisions)) = _ at plans
      cases clear : collidingVersions files set.files with
      | cons version rest =>
          rw [clear] at plans
          cases plans
      | nil =>
          rw [clear] at plans
          cases plans
          exact apart_imported apart clear

/-- **The version for a name is its own exactly where the first file that ends as its
forward file is half of its pair; and in no run do two migrations come to share a
version.** -/
theorem version_for_iff (listing : Listing) (files : List String) (name : MigrationName)
    (clock : Int) (version : String) :
    (listing.read = .ok files → versionFor listing name.text clock = .ok version →
      ((Sound files name.text clock.toNat version ∧
          Own files name.text (plannedPair version name.text)) ↔
        FirstIsPair files name.text)) ∧
    ∀ files, directory.Reachable files → Apart files := by
  refine ⟨fun read given => versionFor_own_iff read given, ?_⟩
  have invariant : directory.Invariant Apart :=
    ⟨fun _ apart => apart, fun _ _ _ apart step => apart_step apart step⟩
  exact fun files reachable => invariant.reachable reachable

/-- A pair that is there before another is named. -/
def usersPair : List String := ["0001_create_users.up.sql", "0001_create_users.down.sql"]

theorem version_for_posts :
    Sound usersPair "posts" 0 "19700101000000" ∧
      Own usersPair "posts" (plannedPair "19700101000000" "posts") :=
  ((version_for_iff (.files usersPair) usersPair ⟨"posts", by decide +kernel⟩ 0
    "19700101000000").1 rfl (by decide +kernel)).mpr fun before listed _ =>
      (existingVersion_none (by decide +kernel) before listed).elim

/-- A name that another name ends in is given a version that is none. -/
theorem users_taken_for_create_users :
    ¬ ∀ (listing : Listing) (files : List String) (name : MigrationName) (clock : Int)
      (version : String), listing.read = .ok files →
      versionFor listing name.text clock = .ok version →
      Sound files name.text clock.toNat version ∧
        Own files name.text (plannedPair version name.text) := by
  intro every
  obtain ⟨_, own⟩ := every (.files usersPair) usersPair ⟨"users", by decide +kernel⟩ 0
    "0001_create" rfl (by decide +kernel)
  obtain ⟨version, belongs⟩ := own "0001_create_users.up.sql" (by decide +kernel) (by decide +kernel)
  have other : migrationOf "0001_create_users.up.sql" = some ("0001", "create_users") := by
    decide +kernel
  rw [other] at belongs
  have named : "create_users" = "users" := (Prod.ext_iff.mp (Option.some.inj belongs)).2
  exact absurd named (by decide)

end Renvor.Generate
