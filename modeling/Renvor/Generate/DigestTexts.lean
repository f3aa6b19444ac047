import Renvor.Foundation.Delimited
import Renvor.Generate.Digest

/-! # What the digest of a tree tells apart

Where the names of a tree are text, its walk comes to an end (`Renvor.Digest.treeText_ends`)
and what is hashed is the lines of its files and links (`Renvor.Digest.treeText_ok`). Two such
trees have one text exactly when these are the same, where every link's text is text of one
line (`Renvor.Digest.texts_same_iff`).
-/

namespace Renvor.Digest

open Foundation

/-! ## What is in scope -/

/-- What a path of the tree ends in. -/
inductive Leaf
  | file (bytes : List Byte)
  | symlink (target : List Byte)
  deriving DecidableEq

/-- There is a regular file or a symlink at a path below. -/
inductive Node.Holds : Node → List Name → Leaf → Prop
  | file {bytes : List Byte} : Holds (.file bytes) [] (.file bytes)
  | symlink {target : List Byte} : Holds (.symlink target) [] (.symlink target)
  | within {listing : List (Name × Node)} {name : Name} {node : Node} {path : List Name} {leaf : Leaf}
      (entry : (name, node) ∈ listing) (below : node.Holds path leaf) :
      Holds (.directory listing) (name :: path) leaf

def Project.Holds (root : Project) (relative : String) (path : List Name) (leaf : Leaf) : Prop :=
  relative ∈ scopePaths ∧ ∃ node, root.seen relative = some node ∧ node.Holds path leaf

/-- The same regular files with the same bytes and the same symlinks with the same text. -/
def Same (first second : Project) : Prop :=
  ∀ relative path leaf, first.Holds relative path leaf ↔ second.Holds relative path leaf

mutual

/-- The files and the symlinks of a node, with the paths below it. -/
def Node.leaves : Node → List (List Name × Leaf)
  | .file bytes => [([], .file bytes)]
  | .symlink target => [([], .symlink target)]
  | .directory listing => leavesOf listing
  | _ => []

def leavesOf : List (Name × Node) → List (List Name × Leaf)
  | [] => []
  | (name, node) :: rest =>
      node.leaves.map (fun item => (name :: item.1, item.2)) ++ leavesOf rest

end

/-- A path below another, as it is rendered. -/
def render (front : List Byte) (path : List Name) : List Byte :=
  front ++ Delimited.led slash path

/-- A rendered path and what it ends in. -/
abbrev Entry := List Byte × Leaf

def entriesAt (root : Project) (relative : String) : List Entry :=
  match root.seen relative with
  | none => []
  | some node => node.leaves.map fun item => (render (ascii relative) item.1, item.2)

def Project.entries (root : Project) : List Entry := scopePaths.flatMap (entriesAt root)

variable (hash : Sha256)

/-- The line of an entry. -/
def line : Entry → List Byte
  | (path, .file bytes) => fileLine hash path bytes
  | (path, .symlink target) => symlinkLine path (Utf8.lossy target)

/-- The entries in the order of their lines. -/
def Project.listing (root : Project) : List Entry :=
  root.entries.insertionSort fun one other => line hash one ≤ line hash other

/-- Two listings that read alike: entry by entry the same file bytes or a link each,
where what follows a line feed of a link's text may stand before the next path. -/
inductive Moved : List Byte → List Entry → List Byte → List Entry → Prop
  | done {front : List Byte} : Moved front [] front []
  | file {front front' path path' bytes : List Byte} {rest rest' : List Entry}
      (paths : front ++ path = front' ++ path') (others : Moved [] rest [] rest') :
      Moved front ((path, .file bytes) :: rest) front' ((path', .file bytes) :: rest')
  | symlink {front front' path path' target target' : List Byte} {rest rest' : List Entry}
      (paths : front ++ path = front' ++ path')
      (others : Moved (Utf8.lossy target ++ [lineFeed]) rest (Utf8.lossy target' ++ [lineFeed]) rest') :
      Moved front ((path, .symlink target) :: rest) front' ((path', .symlink target') :: rest')

/-- Two trees with different listings that read alike. -/
def Confused (first second : Project) : Prop :=
  first.listing hash ≠ second.listing hash ∧
    Moved [] (first.listing hash) [] (second.listing hash)

/-! ## The entries of a node -/

theorem leavesOf_eq (listing : List (Name × Node)) :
    leavesOf listing = listing.flatMap fun item =>
      item.2.leaves.map fun below => (item.1 :: below.1, below.2) := by
  induction listing with
  | nil => rfl
  | cons item rest ih =>
      rw [List.flatMap_cons, ← ih]
      rfl

theorem listed_iff (listing : List (Name × Node)) :
    listed listing = true ↔
      (∀ item ∈ listing, (slash ∉ item.1 ∧ nul ∉ item.1) ∧ item.2.wellFormed = true) ∧
        listing.Pairwise fun one other => other.1 ≠ one.1 := by
  induction listing with
  | nil => simp [listed]
  | cons item rest ih =>
      simp only [listed, Bool.and_eq_true, decide_eq_true_eq, List.all_eq_true, ih,
        List.forall_mem_cons, List.pairwise_cons]
      tauto

theorem Node.mem_leaves {node : Node} {path : List Name} {leaf : Leaf} :
    (path, leaf) ∈ node.leaves ↔ node.Holds path leaf := by
  constructor
  · intro held
    induction path generalizing node with
    | nil =>
        cases node with
        | file bytes =>
            cases List.mem_singleton.mp held
            exact .file
        | symlink target =>
            cases List.mem_singleton.mp held
            exact .symlink
        | directory listing =>
            rw [Node.leaves, leavesOf_eq] at held
            simp at held
        | other => exact nomatch held
        | refused refusal => exact nomatch held
    | cons name path ih =>
        cases node with
        | file bytes => cases List.mem_singleton.mp held
        | symlink target => cases List.mem_singleton.mp held
        | directory listing =>
            rw [Node.leaves, leavesOf_eq] at held
            obtain ⟨⟨name, node⟩, entry, inner⟩ := List.mem_flatMap.mp held
            obtain ⟨⟨below, leaf⟩, found, same⟩ := List.mem_map.mp inner
            cases same
            exact .within entry (ih found)
        | other => exact nomatch held
        | refused refusal => exact nomatch held
  · intro holds
    induction holds with
    | file => exact List.mem_singleton_self _
    | symlink => exact List.mem_singleton_self _
    | within entry below ih =>
        rw [Node.leaves, leavesOf_eq]
        exact List.mem_flatMap.mpr ⟨_, entry, List.mem_map.mpr ⟨_, ih, rfl⟩⟩

/-- What a link's text may be. -/
def Leaf.clean : Leaf → Prop
  | file _ => True
  | symlink target => nul ∉ target

theorem Node.Holds.clean {node : Node} {path : List Name} {leaf : Leaf} (holds : node.Holds path leaf)
    (wellFormed : node.wellFormed = true) :
    (∀ name ∈ path, slash ∉ name ∧ nul ∉ name) ∧ leaf.clean := by
  induction holds with
  | file => exact ⟨fun _ none => (nomatch none), trivial⟩
  | @symlink target =>
      have text : nul ∉ target := of_decide_eq_true wellFormed
      exact ⟨fun _ none => (nomatch none), text⟩
  | within entry below ih =>
      have listed := ((listed_iff _).mp wellFormed).1 _ entry
      have inner := ih listed.2
      exact ⟨List.forall_mem_cons.mpr ⟨listed.1, inner.1⟩, inner.2⟩

theorem mem_leavesOf {listing : List (Name × Node)} {path : List Name}
    (held : path ∈ (leavesOf listing).map Prod.fst) :
    ∃ item ∈ listing, ∃ below, path = item.1 :: below := by
  rw [leavesOf_eq] at held
  obtain ⟨⟨path, leaf⟩, found, rfl⟩ := List.mem_map.mp held
  obtain ⟨item, entry, inner⟩ := List.mem_flatMap.mp found
  obtain ⟨below, _, same⟩ := List.mem_map.mp inner
  cases same
  exact ⟨item, entry, below.1, rfl⟩

mutual

/-- A path leads to one leaf. -/
theorem Node.nodup_leaves : (node : Node) → node.wellFormed = true →
    (node.leaves.map Prod.fst).Nodup
  | .file _, _ => List.nodup_singleton _
  | .symlink _, _ => List.nodup_singleton _
  | .directory listing, wellFormed => nodup_leavesOf listing wellFormed
  | .other, _ => List.nodup_nil
  | .refused _, _ => List.nodup_nil

theorem nodup_leavesOf : (listing : List (Name × Node)) → listed listing = true →
    ((leavesOf listing).map Prod.fst).Nodup
  | [], _ => List.nodup_nil
  | (name, node) :: rest, wellFormed => by
      obtain ⟨each, apart⟩ := (listed_iff _).mp wellFormed
      obtain ⟨⟨_, formed⟩, others⟩ := List.forall_mem_cons.mp each
      obtain ⟨differ, apart⟩ := List.pairwise_cons.mp apart
      have inner := node.nodup_leaves formed
      have outer := nodup_leavesOf rest ((listed_iff rest).mpr ⟨others, apart⟩)
      rw [leavesOf, List.map_append, List.map_map]
      refine List.nodup_append.mpr ⟨?_, outer, ?_⟩
      · have whole : List.map (Prod.fst ∘ fun item : List Name × Leaf => (name :: item.1, item.2))
            node.leaves = (node.leaves.map Prod.fst).map (List.cons name) := by
          rw [List.map_map]
          rfl
        rw [whole]
        exact inner.map (List.cons_injective)
      · intro one here other there same
        obtain ⟨below, _, rfl⟩ := List.mem_map.mp here
        obtain ⟨item, entry, path, rfl⟩ := mem_leavesOf there
        cases same
        exact differ item entry rfl

end

theorem render_cons (front : List Byte) (name : Name) (path : List Name) :
    render (front ++ slash :: name) path = render front (name :: path) := by
  simp [render]

theorem bind_ok {Failure Value Result : Type} {first : Except Failure Value}
    {rest : Value → Except Failure Result} {result : Result} (done : first >>= rest = .ok result) :
    ∃ value, first = .ok value ∧ rest value = .ok result := by
  cases first with
  | error failure => exact nomatch done
  | ok value => exact ⟨value, rfl, done⟩

mutual

/-- The names below a node are text. -/
def Node.named : Node → Bool
  | .directory listing => namedAll listing
  | _ => true

def namedAll : List (Name × Node) → Bool
  | [] => true
  | (name, node) :: rest => decide (Utf8.lossy name = name) && node.named && namedAll rest

end

theorem namedAll_iff {listing : List (Name × Node)} :
    namedAll listing = true ↔
      ∀ item ∈ listing, Utf8.lossy item.1 = item.1 ∧ item.2.named = true := by
  induction listing with
  | nil => simp [namedAll]
  | cons item rest ih =>
      simp only [namedAll, Bool.and_eq_true, decide_eq_true_eq, ih, List.forall_mem_cons]

/-- An entry is found by its name. -/
theorem lookup_listed {listing : List (Name × Node)} (formed : listed listing = true)
    {item : Name × Node} (entry : item ∈ listing) : listing.lookup item.1 = some item.2 := by
  obtain ⟨_, apart⟩ := (listed_iff listing).mp formed
  obtain ⟨front, back, rfl⟩ := List.append_of_mem entry
  refine List.lookup_eq_some_iff.mpr ⟨front, back, rfl, fun other before => ?_⟩
  have differ := (List.pairwise_append.mp apart).2.2 other before item List.mem_cons_self
  simpa using differ

section Walk

variable (follow : List (Name × Node) → List Byte → Option Node)

/-- What is opened by an entry's own name is the entry. -/
theorem entryLines_own {descend : List Byte → List (Name × Node) →
      Except DigestError (List (List Byte))} {listing : List (Name × Node)}
    (formed : listed listing = true) {item : Name × Node} (entry : item ∈ listing)
    {relative : List Byte} {lines : List (List Byte)}
    (below : ∀ listing, item.2 = .directory listing → ∀ {lines},
      descend relative listing = .ok lines →
        lines = (leavesOf listing).map fun item => line hash (render relative item.1, item.2))
    (done : entryLines hash follow descend listing relative item.1 item.2 = .ok lines) :
    lines = item.2.leaves.map fun item => line hash (render relative item.1, item.2) := by
  obtain ⟨name, node⟩ := item
  have found := lookup_listed formed entry
  unfold entryLines opened at done
  simp only [found] at done
  cases node with
  | file bytes =>
      cases done
      simp [Node.leaves, line, render]
  | symlink target =>
      cases done
      simp [Node.leaves, line, render]
  | directory listing => exact below listing rfl done
  | other =>
      cases done
      rfl
  | refused refusal => cases refusal <;> cases done

/-- Where a walk comes to its end, its lines are those of the leaves. -/
theorem walk_ok {fuel : Nat} {front : List Byte} {listing : List (Name × Node)}
    (formed : listed listing = true) (named : namedAll listing = true) {lines : List (List Byte)}
    (done : walk hash follow fuel front listing = .ok lines) :
    lines = (leavesOf listing).map fun item => line hash (render front item.1, item.2) := by
  induction fuel generalizing front listing lines with
  | zero => cases done
  | succ fuel ih =>
      rw [walk] at done
      have part : ∀ {entries : List (Name × Node)} {lines : List (List Byte)},
          (∀ item ∈ entries, item ∈ listing) →
          entriesLines hash follow (walk hash follow fuel) front listing entries = .ok lines →
          lines = (leavesOf entries).map fun item => line hash (render front item.1, item.2) := by
        intro entries lines within done
        induction entries generalizing lines with
        | nil =>
            cases done
            rfl
        | cons item rest inner =>
            obtain ⟨name, node⟩ := item
            obtain ⟨entry, within⟩ := List.forall_mem_cons.mp within
            obtain ⟨own, below⟩ := namedAll_iff.mp named _ entry
            have inside := (((listed_iff listing).mp formed).1 _ entry).2
            rw [entriesLines] at done
            obtain ⟨here, first, done⟩ := bind_ok done
            obtain ⟨others, second, done⟩ := bind_ok done
            cases done
            dsimp only at own
            rw [own] at first
            rw [leavesOf, List.map_append, List.map_map, inner within second,
              entryLines_own hash follow formed entry (fun listing same lines done => ?_) first]
            · refine congrArg (· ++ _) (List.map_congr_left fun item _ => ?_)
              rw [render_cons]
              rfl
            · rw [show node = .directory listing from same] at inside below
              exact ih inside below done
      exact part (fun _ held => held) done

/-- A walk that is endless is so in some entry's lines. -/
theorem entriesLines_endless {descend : List Byte → List (Name × Node) →
      Except DigestError (List (List Byte))} {front : List Byte}
    {listing entries : List (Name × Node)}
    (endless : entriesLines hash follow descend front listing entries = .error .endless) :
    ∃ item ∈ entries, ∃ relative,
      entryLines hash follow descend listing relative (Utf8.lossy item.1) item.2 =
        .error .endless := by
  induction entries with
  | nil => cases endless
  | cons item rest ih =>
      obtain ⟨name, node⟩ := item
      rw [entriesLines] at endless
      cases here : entryLines hash follow descend listing (front ++ slash :: Utf8.lossy name)
          (Utf8.lossy name) node with
      | error failure =>
          rw [here] at endless
          cases endless
          exact ⟨(name, node), List.mem_cons_self, _, here⟩
      | ok lines =>
          rw [here] at endless
          cases others : entriesLines hash follow descend front listing rest with
          | error failure =>
              cases (show Except.error failure = .error .endless by rw [← endless, others]; rfl)
              obtain ⟨item, entry, found⟩ := ih others
              exact ⟨item, List.mem_cons_of_mem _ entry, found⟩
          | ok more =>
              simp only [others] at endless
              cases endless

/-- An entry whose name is text is endless only where its directory is. -/
theorem entryLines_endless {descend : List Byte → List (Name × Node) →
      Except DigestError (List (List Byte))} {listing : List (Name × Node)}
    (formed : listed listing = true) {item : Name × Node} (entry : item ∈ listing)
    {relative : List Byte}
    (endless : entryLines hash follow descend listing relative item.1 item.2 = .error .endless) :
    ∃ below, item.2 = .directory below ∧ descend relative below = .error .endless := by
  obtain ⟨name, node⟩ := item
  have found := lookup_listed formed entry
  unfold entryLines opened at endless
  simp only [found] at endless
  cases node with
  | directory below => exact ⟨below, rfl, endless⟩
  | file | symlink | other => cases endless
  | refused refusal => cases refusal <;> cases endless

mutual

/-- **The walk of a node whose names are text comes to an end.** -/
theorem Node.ends : (node : Node) → node.wellFormed = true → node.named = true →
    ∃ enough, ∀ fuel relative, enough ≤ fuel →
      node.lines hash follow fuel relative ≠ .error .endless
  | .directory listing, formed, named => by
      obtain ⟨enough, below⟩ := ends_all listing formed named
      refine ⟨enough + 1, fun fuel relative most endless => ?_⟩
      obtain ⟨fuel, rfl⟩ := Nat.exists_eq_add_of_le most
      have shape : enough + 1 + fuel = enough + fuel + 1 := by omega
      rw [shape, Node.lines, walk] at endless
      obtain ⟨item, entry, relative, found⟩ := entriesLines_endless hash follow endless
      rw [(namedAll_iff.mp named item entry).1] at found
      obtain ⟨listing, same, ended⟩ := entryLines_endless hash follow formed entry found
      refine below item entry (enough + fuel) relative (Nat.le_add_right _ _) ?_
      rw [same]
      exact ended
  | .file _, _, _ => ⟨0, fun _ _ _ endless => by cases endless⟩
  | .symlink _, _, _ => ⟨0, fun _ _ _ endless => by cases endless⟩
  | .other, _, _ => ⟨0, fun _ _ _ endless => by cases endless⟩
  | .refused _, _, _ => ⟨0, fun _ _ _ endless => by cases endless⟩

theorem ends_all : (listing : List (Name × Node)) → listed listing = true →
    namedAll listing = true → ∃ enough, ∀ item ∈ listing, ∀ fuel relative, enough ≤ fuel →
      item.2.lines hash follow fuel relative ≠ .error .endless
  | [], _, _ => ⟨0, fun _ none => by cases none⟩
  | (name, node) :: rest, formed, named => by
      obtain ⟨each, apart⟩ := (listed_iff _).mp formed
      obtain ⟨⟨_, inside⟩, others⟩ := List.forall_mem_cons.mp each
      obtain ⟨own, rests⟩ := List.forall_mem_cons.mp (namedAll_iff.mp named)
      obtain ⟨enough, here⟩ := node.ends inside own.2
      obtain ⟨more, there⟩ := ends_all rest
        ((listed_iff rest).mpr ⟨others, (List.pairwise_cons.mp apart).2⟩) (namedAll_iff.mpr rests)
      refine ⟨max enough more, fun item entry fuel relative most => ?_⟩
      rcases List.mem_cons.mp entry with rfl | entry
      · exact here fuel relative ((Nat.le_max_left _ _).trans most)
      · exact there item entry fuel relative ((Nat.le_max_right _ _).trans most)

end

/-- The names of a project in scope are text. -/
def Project.Named (root : Project) : Prop :=
  ∀ relative ∈ scopePaths, ∀ node, root.seen relative = some node → node.named = true

/-- Where a node's walk comes to its end, its lines are those of its leaves. -/
theorem Node.lines_ok {fuel : Nat} {relative : List Byte} {node : Node}
    (formed : node.wellFormed = true) (named : node.named = true) {lines : List (List Byte)}
    (done : node.lines hash follow fuel relative = .ok lines) :
    lines = node.leaves.map fun item => line hash (render relative item.1, item.2) := by
  cases node with
  | file bytes =>
      cases done
      simp [Node.leaves, line, render]
  | symlink target =>
      cases done
      simp [Node.leaves, line, render]
  | directory listing => exact walk_ok hash follow formed named done
  | other =>
      cases done
      rfl
  | refused refusal => cases done

end Walk

/-! ## The entries of a project -/

section Walk

variable (follow : List (Name × Node) → List Byte → Option Node) {fuel : Nat} {root : Project}

theorem entry_ok (named : root.Named) {relative : String} (inScope : relative ∈ scopePaths)
    {lines : List (List Byte)} (done : entry hash follow fuel root relative = .ok lines) :
    lines = (entriesAt root relative).map (line hash) := by
  unfold entry at done
  unfold entriesAt
  split at done
  next unseen =>
    cases done
    simp [unseen]
  next node seen =>
    rw [Node.lines_ok hash follow (root.wellFormed relative node seen)
      (named relative inScope node seen) done]
    simp only [seen, List.map_map]
    rfl

theorem gather_ok (named : root.Named) {paths : List String} (inScope : paths ⊆ scopePaths)
    {lines : List (List Byte)} (done : gather hash follow fuel root paths = .ok lines) :
    lines = (paths.flatMap (entriesAt root)).map (line hash) := by
  induction paths generalizing lines with
  | nil =>
      cases done
      rfl
  | cons relative rest ih =>
      obtain ⟨own, inScope⟩ := List.cons_subset.mp inScope
      obtain ⟨here, first, done⟩ := bind_ok done
      obtain ⟨others, second, done⟩ := bind_ok done
      cases done
      rw [List.flatMap_cons, List.map_append, entry_ok hash follow named own first,
        ih inScope second]

/-- **What is hashed is the lines of the listing.** -/
theorem treeText_ok (named : root.Named) {scope : Nat} {text : List Byte}
    (done : treeText hash follow fuel root scope = .ok text) :
    text = ((root.listing hash).map (line hash)).flatten := by
  unfold treeText at done
  split at done
  · cases done
  · obtain ⟨lines, gathered, done⟩ := bind_ok done
    cases done
    rw [gather_ok hash follow named (List.Subset.refl _) gathered, Project.listing,
      List.map_insertionSort _ (· ≤ ·) (line hash) _ (fun _ _ _ _ => Iff.rfl)]
    rfl

theorem gather_ends (root : Project) (named : root.Named) {paths : List String}
    (inScope : paths ⊆ scopePaths) :
    ∃ enough, ∀ fuel, enough ≤ fuel → gather hash follow fuel root paths ≠ .error .endless := by
  induction paths with
  | nil => exact ⟨0, fun _ _ endless => by cases endless⟩
  | cons relative rest ih =>
      obtain ⟨own, inScope⟩ := List.cons_subset.mp inScope
      obtain ⟨more, there⟩ := ih inScope
      obtain ⟨enough, here⟩ : ∃ enough, ∀ fuel, enough ≤ fuel →
          entry hash follow fuel root relative ≠ .error .endless := by
        unfold entry
        cases seen : root.seen relative with
        | none => exact ⟨0, fun _ _ endless => by cases endless⟩
        | some node =>
            obtain ⟨enough, ends⟩ := node.ends hash follow (root.wellFormed relative node seen)
              (named relative own node seen)
            exact ⟨enough, fun fuel most => ends fuel _ most⟩
      refine ⟨max enough more, fun fuel most endless => ?_⟩
      have ended := here fuel ((Nat.le_max_left _ _).trans most)
      have others := there fuel ((Nat.le_max_right _ _).trans most)
      rw [gather] at endless
      cases first : entry hash follow fuel root relative with
      | error failure =>
          rw [first] at endless
          cases endless
          exact ended first
      | ok lines =>
          rw [first] at endless
          cases second : gather hash follow fuel root rest with
          | error failure =>
              simp only [second] at endless
              cases endless
              exact others second
          | ok more =>
              simp only [second] at endless
              cases endless

/-- **With enough fuel the digest's text is taken, or refused for a reason of the tree.** -/
theorem treeText_ends (root : Project) (named : root.Named) (scope : Nat) :
    ∃ enough, ∀ fuel, enough ≤ fuel → treeText hash follow fuel root scope ≠ .error .endless := by
  obtain ⟨enough, ends⟩ := gather_ends hash follow root named (List.Subset.refl scopePaths)
  refine ⟨enough, fun fuel most endless => ends fuel most ?_⟩
  unfold treeText at endless
  split at endless
  · cases endless
  · cases gathered : gather hash follow fuel root scopePaths with
    | error failure =>
        rw [gathered] at endless
        cases endless
        rfl
    | ok lines =>
        rw [gathered] at endless
        cases endless

end Walk

/-- No path of the scope begins another. -/
theorem scope_apart : ∀ relative ∈ scopePaths, ∀ other ∈ scopePaths,
    ascii relative <+: ascii other → relative = other := by
  decide +kernel

theorem render_inj {relative relative' : String} {path path' : List Name}
    (inScope : relative ∈ scopePaths) (inScope' : relative' ∈ scopePaths)
    (paths : ∀ name ∈ path, slash ∉ name) (others : ∀ name ∈ path', slash ∉ name)
    (same : render (ascii relative) path = render (ascii relative') path') :
    relative = relative' ∧ path = path' := by
  have first : ascii relative <+: render (ascii relative) path := List.prefix_append _ _
  have second : ascii relative' <+: render (ascii relative) path := same ▸ List.prefix_append _ _
  have one : relative = relative' := by
    rcases List.prefix_or_prefix_of_prefix first second with begins | begins
    · exact scope_apart _ inScope _ inScope' begins
    · exact (scope_apart _ inScope' _ inScope begins).symm
  subst one
  exact ⟨rfl, Delimited.led_inj paths others (List.append_cancel_left same)⟩

/-- An entry is a leaf in scope. -/
theorem Project.mem_entries {root : Project} {entry : Entry} :
    entry ∈ root.entries ↔ ∃ relative path,
      root.Holds relative path entry.2 ∧ entry.1 = render (ascii relative) path := by
  unfold entries
  rw [List.mem_flatMap]
  constructor
  · rintro ⟨relative, inScope, held⟩
    unfold entriesAt at held
    split at held
    next => exact nomatch held
    next node seen =>
      obtain ⟨⟨path, leaf⟩, below, rfl⟩ := List.mem_map.mp held
      exact ⟨relative, path, ⟨inScope, node, seen, Node.mem_leaves.mp below⟩, rfl⟩
  · rintro ⟨relative, path, ⟨inScope, node, seen, holds⟩, rendered⟩
    refine ⟨relative, inScope, ?_⟩
    rw [entriesAt, seen]
    exact List.mem_map.mpr ⟨(path, entry.2), Node.mem_leaves.mpr holds, Prod.ext rendered.symm rfl⟩

theorem Project.Holds.clean {root : Project} {relative : String} {path : List Name} {leaf : Leaf}
    (holds : root.Holds relative path leaf) :
    (∀ name ∈ path, slash ∉ name ∧ nul ∉ name) ∧ leaf.clean := by
  obtain ⟨_, node, seen, holds⟩ := holds
  exact holds.clean (root.wellFormed relative node seen)

/-- The paths of a project are rendered differently. -/
theorem Project.nodup_entries (root : Project) : (root.entries.map Prod.fst).Nodup := by
  rw [entries, List.map_flatMap, List.nodup_flatMap]
  constructor
  · intro relative inScope
    unfold entriesAt
    split
    next => exact List.nodup_nil
    next node seen =>
      have formed := root.wellFormed relative node seen
      rw [List.map_map]
      have whole : List.map (Prod.fst ∘ fun item : List Name × Leaf =>
          (render (ascii relative) item.1, item.2)) node.leaves =
          (node.leaves.map Prod.fst).map (render (ascii relative)) := by
        rw [List.map_map]
        rfl
      rw [whole]
      refine (node.nodup_leaves formed).map_on ?_
      intro path here other there same
      obtain ⟨⟨_, leaf⟩, held, rfl⟩ := List.mem_map.mp here
      obtain ⟨⟨_, leaf'⟩, held', rfl⟩ := List.mem_map.mp there
      have one := (Node.mem_leaves.mp held).clean formed
      have two := (Node.mem_leaves.mp held').clean formed
      exact (render_inj inScope inScope (fun name held => (one.1 name held).1)
        (fun name held => (two.1 name held).1) same).2
  · have distinct : scopePaths.Nodup := by decide +kernel
    refine distinct.pairwise_of_forall_ne ?_
    intro relative inScope other inScope' differ path here there
    obtain ⟨entry, held, rfl⟩ := List.mem_map.mp here
    obtain ⟨entry', held', same⟩ := List.mem_map.mp there
    unfold entriesAt at held held'
    split at held
    next => exact nomatch held
    next node seen =>
      split at held'
      next => exact nomatch held'
      next node' seen' =>
        obtain ⟨⟨path, leaf⟩, below, rfl⟩ := List.mem_map.mp held
        obtain ⟨⟨path', leaf'⟩, below', rfl⟩ := List.mem_map.mp held'
        have one := (Node.mem_leaves.mp below).clean (root.wellFormed _ _ seen)
        have two := (Node.mem_leaves.mp below').clean (root.wellFormed _ _ seen')
        exact differ (render_inj inScope' inScope (fun name held => (two.1 name held).1)
          (fun name held => (one.1 name held).1) same).1.symm

/-- **Two trees with the same leaves are those with the same entries.** -/
theorem same_iff_perm {first second : Project} :
    Same first second ↔ first.entries.Perm second.entries := by
  constructor
  · intro same
    refine (List.perm_ext_iff_of_nodup first.nodup_entries.of_map second.nodup_entries.of_map).mpr ?_
    intro entry
    rw [Project.mem_entries, Project.mem_entries]
    exact exists_congr fun relative => exists_congr fun path =>
      and_congr_left fun _ => same relative path entry.2
  · intro perm
    have one : ∀ {first second : Project}, first.entries.Perm second.entries →
        ∀ {relative path leaf}, first.Holds relative path leaf → second.Holds relative path leaf := by
      intro first second perm relative path leaf holds
      have held : (render (ascii relative) path, leaf) ∈ first.entries :=
        Project.mem_entries.mpr ⟨relative, path, holds, rfl⟩
      obtain ⟨relative', path', holds', same⟩ := Project.mem_entries.mp (perm.subset held)
      have here := holds.clean.1
      have there := holds'.clean.1
      obtain ⟨rfl, rfl⟩ := render_inj holds.1 holds'.1 (fun name held => (here name held).1)
        (fun name held => (there name held).1) same
      exact holds'
    exact fun relative path leaf => ⟨one perm, one perm.symm⟩

theorem nul_render {relative : String} {path : List Name} (inScope : relative ∈ scopePaths)
    (names : ∀ name ∈ path, nul ∉ name) : nul ∉ render (ascii relative) path := by
  have top : ∀ relative ∈ scopePaths, nul ∉ ascii relative := by decide +kernel
  intro held
  rcases List.mem_append.mp held with held | held
  · exact top relative inScope held
  · obtain ⟨name, entry, held⟩ := List.mem_flatMap.mp held
    rcases List.mem_cons.mp held with same | held
    · exact absurd same (by decide)
    · exact names name entry held

/-- An entry is rendered with no separator of its own. -/
def Entry.clean (entry : Entry) : Prop := nul ∉ entry.1 ∧ entry.2.clean

theorem Project.clean_entries {root : Project} {entry : Entry} (held : entry ∈ root.entries) :
    Entry.clean entry := by
  obtain ⟨relative, path, holds, rendered⟩ := Project.mem_entries.mp held
  have clean := holds.clean
  exact ⟨rendered ▸ nul_render holds.1 fun name held => (clean.1 name held).2, clean.2⟩

/-! ## Lines -/

theorem line_path (entry : Entry) : ∃ rest, line hash entry = entry.1 ++ nul :: rest := by
  obtain ⟨path, leaf⟩ := entry
  cases leaf with
  | file bytes => exact ⟨_, rfl⟩
  | symlink target => exact ⟨_, rfl⟩

theorem Project.perm_listing (root : Project) : (root.listing hash).Perm root.entries :=
  List.perm_insertionSort _ _

theorem Project.pairwise_listing (root : Project) :
    (root.listing hash).Pairwise fun one other => line hash one ≤ line hash other := by
  have total : Std.Total fun one other : Entry => line hash one ≤ line hash other :=
    ⟨fun one other => le_total (line hash one) (line hash other)⟩
  have trans : IsTrans Entry fun one other => line hash one ≤ line hash other :=
    ⟨fun _ _ _ => le_trans⟩
  exact List.pairwise_insertionSort _ _

/-- **Two trees with the same leaves are those with the same listing.** -/
theorem same_iff_listing {first second : Project} :
    Same first second ↔ first.listing hash = second.listing hash := by
  rw [same_iff_perm]
  constructor
  · intro perm
    have listings : (first.listing hash).Perm (second.listing hash) :=
      (first.perm_listing hash).trans (perm.trans (second.perm_listing hash).symm)
    refine listings.eq_of_pairwise ?_ (first.pairwise_listing hash) (second.pairwise_listing hash)
    intro one other here there below above
    have held := (first.perm_listing hash).subset here
    have held' := perm.symm.subset ((second.perm_listing hash).subset there)
    obtain ⟨rest, one_line⟩ := line_path hash one
    obtain ⟨rest', other_line⟩ := line_path hash other
    have lines : one.1 ++ nul :: rest = other.1 ++ nul :: rest' := by
      rw [← one_line, ← other_line, le_antisymm below above]
    have paths := (Delimited.append_mark_inj (Project.clean_entries held).1
      (Project.clean_entries held').1 lines).1
    exact List.inj_on_of_nodup_map first.nodup_entries held held' paths
  · intro same
    exact (first.perm_listing hash).symm.trans (same ▸ second.perm_listing hash)

theorem length_hexText (digest : SecretDigest) : (hexText digest).length = 64 := by
  have pairs : ∀ bytes : List Byte, (bytes.flatMap Byte.hex).length = bytes.length * 2 := by
    intro bytes
    induction bytes with
    | nil => rfl
    | cons byte rest ih =>
        rw [List.flatMap_cons, List.length_append, ih, List.length_cons]
        simp only [Byte.hex, List.length_cons, List.length_nil]
        omega
  rw [hexText, List.length_map, pairs, digest.width]

theorem mem_hexText {digest : SecretDigest} {byte : Byte} (held : byte ∈ hexText digest) :
    ∃ nibble, byte = Fin.ofNat 256 (hexDigit nibble).toNat := by
  obtain ⟨character, digit, rfl⟩ := List.mem_map.mp held
  obtain ⟨byte, _, inner⟩ := List.mem_flatMap.mp digit
  rcases List.mem_cons.mp inner with rfl | second
  · exact ⟨_, rfl⟩
  · cases List.mem_singleton.mp second
    exact ⟨_, rfl⟩

theorem hexText_inj {one other : SecretDigest} (same : hexText one = hexText other) :
    one = other := by
  have digit : ∀ nibble : Fin 16, Char.ofNat (Fin.ofNat 256 (hexDigit nibble).toNat : Byte).val =
      hexDigit nibble := by decide
  have back : ∀ bytes : List Byte, ((bytes.flatMap Byte.hex).map fun character =>
      (Fin.ofNat 256 character.toNat : Byte)).map (fun byte => Char.ofNat byte.val) =
        bytes.flatMap Byte.hex := by
    intro bytes
    induction bytes with
    | nil => rfl
    | cons byte rest ih =>
        rw [List.flatMap_cons, List.map_append, List.map_append, ih]
        simp only [Byte.hex, List.map_cons, List.map_nil, digit]
  have texts : one.bytes.flatMap Byte.hex = other.bytes.flatMap Byte.hex := by
    rw [← back one.bytes, ← back other.bytes]
    exact congrArg (List.map fun byte : Byte => Char.ofNat byte.val) same
  have read := congrArg hexBytes texts
  rw [hexBytes_hex, hexBytes_hex] at read
  cases one
  cases other
  cases Option.some.inj read
  rfl

/-- No digest is rendered as a link's text. -/
theorem hexText_ne {digest : SecretDigest} {front rest : List Byte} :
    hexText digest ++ rest ≠ ascii "symlink:" ++ front := by
  intro same
  have wide := length_hexText digest
  cases text : hexText digest with
  | nil => rw [text] at wide; cases wide
  | cons byte others =>
      rw [text] at same
      obtain ⟨nibble, value⟩ := mem_hexText (text ▸ List.mem_cons_self : byte ∈ hexText digest)
      have first : byte = Fin.ofNat 256 's'.toNat := (List.cons.inj same).1
      have apart : ∀ nibble : Fin 16, (Fin.ofNat 256 (hexDigit nibble).toNat : Byte) ≠
          Fin.ofNat 256 's'.toNat := by decide
      exact apart nibble (value ▸ first)

/-! ## What is hashed -/

/-- The lines of entries, one after another. -/
def textOf (entries : List Entry) : List Byte := (entries.map (line hash)).flatten

theorem textOf_file (path bytes : List Byte) (rest : List Entry) :
    textOf hash ((path, .file bytes) :: rest) =
      path ++ nul :: (hexText (hash bytes) ++ lineFeed :: textOf hash rest) := by
  simp [textOf, line, fileLine]

theorem textOf_symlink (path target : List Byte) (rest : List Entry) :
    textOf hash ((path, .symlink target) :: rest) =
      path ++ nul :: (ascii "symlink:" ++ (Utf8.lossy target ++ [lineFeed] ++ textOf hash rest)) := by
  simp [textOf, line, symlinkLine]

theorem nul_link {target : List Byte} (clean : nul ∉ target) :
    nul ∉ Utf8.lossy target ++ [lineFeed] := by
  intro held
  rcases List.mem_append.mp held with held | held
  · exact clean (Utf8.lossy_mem (by decide) held)
  · exact absurd (List.mem_singleton.mp held) (by decide)

/-- Listings that read alike have one text. -/
theorem Moved.text {front front' : List Byte} {entries entries' : List Entry}
    (moved : Moved front entries front' entries') :
    front ++ textOf hash entries = front' ++ textOf hash entries' := by
  induction moved with
  | done => rfl
  | file paths others ih =>
      rw [textOf_file, textOf_file, ← List.append_assoc, ← List.append_assoc, paths]
      rw [List.nil_append, List.nil_append] at ih
      rw [ih]
  | symlink paths others ih =>
      rw [textOf_symlink, textOf_symlink, ih, ← List.append_assoc, paths, List.append_assoc]

/-- The text up to the first separator. -/
theorem front_ends {front front' path path' rest rest' : List Byte} (clean : nul ∉ front)
    (clean' : nul ∉ front') (paths : nul ∉ path) (paths' : nul ∉ path')
    (same : front ++ (path ++ nul :: rest) = front' ++ (path' ++ nul :: rest')) :
    front ++ path = front' ++ path' ∧ rest = rest' := by
  rw [← List.append_assoc, ← List.append_assoc] at same
  refine Delimited.append_mark_inj ?_ ?_ same
  · exact fun held => (List.mem_append.mp held).elim clean paths
  · exact fun held => (List.mem_append.mp held).elim clean' paths'

/-- **Listings with one text read alike**, entry by entry from the front. -/
theorem moved_of_text {front front' : List Byte} {entries entries' : List Entry}
    (fronts : nul ∉ front) (fronts' : nul ∉ front') (clean : ∀ entry ∈ entries, Entry.clean entry)
    (clean' : ∀ entry ∈ entries', Entry.clean entry)
    (apart : ∀ path bytes path' bytes', (path, Leaf.file bytes) ∈ entries →
      (path', Leaf.file bytes') ∈ entries' → hash bytes = hash bytes' → bytes = bytes')
    (same : front ++ textOf hash entries = front' ++ textOf hash entries') :
    Moved front entries front' entries' := by
  induction entries generalizing front front' entries' with
  | nil =>
      cases entries' with
      | nil =>
          rw [show textOf hash [] = [] from rfl, List.append_nil, List.append_nil] at same
          rw [same]
          exact .done
      | cons entry rest =>
          obtain ⟨others, shape⟩ := line_path hash entry
          rw [show textOf hash [] = [] from rfl, List.append_nil] at same
          refine (fronts ?_).elim
          rw [same, textOf, List.map_cons, List.flatten_cons, shape]
          simp
  | cons entry rest ih =>
      cases entries' with
      | nil =>
          obtain ⟨others, shape⟩ := line_path hash entry
          rw [show textOf hash [] = [] from rfl, List.append_nil] at same
          refine (fronts' ?_).elim
          rw [← same, textOf, List.map_cons, List.flatten_cons, shape]
          simp
      | cons entry' rest' =>
          obtain ⟨⟨paths, leaf⟩, others⟩ := List.forall_mem_cons.mp clean
          obtain ⟨⟨paths', leaf'⟩, others'⟩ := List.forall_mem_cons.mp clean'
          have remaining : ∀ path bytes path' bytes', (path, Leaf.file bytes) ∈ rest →
              (path', Leaf.file bytes') ∈ rest' → hash bytes = hash bytes' → bytes = bytes' :=
            fun path bytes path' bytes' held held' => apart path bytes path' bytes'
              (List.mem_cons_of_mem _ held) (List.mem_cons_of_mem _ held')
          obtain ⟨path, one⟩ := entry
          obtain ⟨path', other⟩ := entry'
          cases one with
          | file bytes =>
              cases other with
              | file bytes' =>
                  rw [textOf_file, textOf_file] at same
                  obtain ⟨fronts, bodies⟩ := front_ends fronts fronts' paths paths' same
                  obtain ⟨digests, tails⟩ := List.append_inj bodies
                    (by rw [length_hexText, length_hexText])
                  have equal := apart path bytes path' bytes' List.mem_cons_self
                    List.mem_cons_self (hexText_inj digests)
                  subst equal
                  exact .file fronts (ih List.not_mem_nil List.not_mem_nil others others' remaining
                    (List.cons.inj tails).2)
              | symlink target' =>
                  rw [textOf_file, textOf_symlink] at same
                  obtain ⟨_, bodies⟩ := front_ends fronts fronts' paths paths' same
                  exact (hexText_ne bodies).elim
          | symlink target =>
              cases other with
              | file bytes' =>
                  rw [textOf_symlink, textOf_file] at same
                  obtain ⟨_, bodies⟩ := front_ends fronts fronts' paths paths' same
                  exact (hexText_ne bodies.symm).elim
              | symlink target' =>
                  rw [textOf_symlink, textOf_symlink] at same
                  obtain ⟨fronts, bodies⟩ := front_ends fronts fronts' paths paths' same
                  exact .symlink fronts (ih (nul_link leaf) (nul_link leaf') others others'
                    remaining (List.append_cancel_left bodies))

/-- The digests of the files of two trees are apart where the files are. -/
def Separates (first second : Project) : Prop :=
  ∀ relative path bytes relative' path' bytes', first.Holds relative path (.file bytes) →
    second.Holds relative' path' (.file bytes') → hash bytes = hash bytes' → bytes = bytes'

/-- Every link's text is text, on one line. -/
def Plain (entries : List Entry) : Prop :=
  ∀ path target, (path, Leaf.symlink target) ∈ entries →
    Utf8.lossy target = target ∧ lineFeed ∉ target

/-- **A project whose links have text of one line.** -/
def Project.Plain (root : Project) : Prop :=
  ∀ relative path target, root.Holds relative path (.symlink target) →
    Utf8.lossy target = target ∧ lineFeed ∉ target

theorem Project.Plain.entries {root : Project} (plain : root.Plain) :
    Digest.Plain root.entries := by
  intro path target held
  obtain ⟨relative, below, holds, _⟩ := Project.mem_entries.mp held
  exact plain relative below target holds

/-- Where no link's text has a line feed, only listings that are the same read alike. -/
theorem Moved.eq {front front' : List Byte} {entries entries' : List Entry}
    (moved : Moved front entries front' entries') (plain : Plain entries) (plain' : Plain entries')
    (fronts : (front = [] ∧ front' = []) ∨ ∃ text text', lineFeed ∉ text ∧ lineFeed ∉ text' ∧
      front = text ++ [lineFeed] ∧ front' = text' ++ [lineFeed]) :
    front = front' ∧ entries = entries' := by
  have split : ∀ {front front' path path' : List Byte}, front ++ path = front' ++ path' →
      ((front = [] ∧ front' = []) ∨ ∃ text text', lineFeed ∉ text ∧ lineFeed ∉ text' ∧
        front = text ++ [lineFeed] ∧ front' = text' ++ [lineFeed]) →
      front = front' ∧ path = path' := by
    rintro front front' path path' paths (⟨rfl, rfl⟩ | ⟨text, text', one, other, rfl, rfl⟩)
    · exact ⟨rfl, paths⟩
    · rw [List.append_assoc, List.append_assoc] at paths
      obtain ⟨rfl, below⟩ := Delimited.append_mark_inj one other paths
      exact ⟨rfl, below⟩
  induction moved with
  | done => exact ⟨rfl, rfl⟩
  | file paths others ih =>
      obtain ⟨fronts, paths⟩ := split paths fronts
      have rests := ih (fun path target held => plain path target (List.mem_cons_of_mem _ held))
        (fun path target held => plain' path target (List.mem_cons_of_mem _ held)) (.inl ⟨rfl, rfl⟩)
      exact ⟨fronts, by rw [paths, rests.2]⟩
  | @symlink _ _ path path' target target' _ _ paths others ih =>
      obtain ⟨fronts, paths⟩ := split paths fronts
      obtain ⟨read, line⟩ := plain path target List.mem_cons_self
      obtain ⟨read', line'⟩ := plain' path' target' List.mem_cons_self
      have rests := ih (fun path target held => plain path target (List.mem_cons_of_mem _ held))
        (fun path target held => plain' path target (List.mem_cons_of_mem _ held))
        (.inr ⟨target, target', line, line', by rw [read], by rw [read']⟩)
      have targets : target = target' := by
        rw [← read, ← read']
        exact List.append_cancel_right rests.1
      exact ⟨fronts, by rw [paths, targets, rests.2]⟩

/-- **Trees whose links have text of one line are not confused.** -/
theorem plain_apart {first second : Project} (plain : first.Plain) (plain' : second.Plain) :
    ¬ Confused hash first second := by
  rintro ⟨differ, moved⟩
  refine differ (moved.eq ?_ ?_ (.inl ⟨rfl, rfl⟩)).2
  · exact fun path target held => plain.entries path target ((first.perm_listing hash).subset held)
  · exact fun path target held =>
      plain'.entries path target ((second.perm_listing hash).subset held)

section Texts

variable (follow : List (Name × Node) → List Byte → Option Node)

/-- **What is hashed of two trees is the same text where their listings read alike.** -/
theorem text_eq_iff_moved {first second : Project} (named : first.Named) (named' : second.Named)
    {scope fuel fuel' : Nat} {text text' : List Byte}
    (one : treeText hash follow fuel first scope = .ok text)
    (other : treeText hash follow fuel' second scope = .ok text')
    (separates : Separates hash first second) :
    text = text' ↔ Moved [] (first.listing hash) [] (second.listing hash) := by
  rw [treeText_ok hash follow named one, treeText_ok hash follow named' other]
  constructor
  · intro same
    refine moved_of_text hash List.not_mem_nil List.not_mem_nil ?_ ?_ ?_ same
    · exact fun entry held => Project.clean_entries ((first.perm_listing hash).subset held)
    · exact fun entry held => Project.clean_entries ((second.perm_listing hash).subset held)
    · intro path bytes path' bytes' held held' digests
      obtain ⟨relative, below, holds, _⟩ :=
        Project.mem_entries.mp ((first.perm_listing hash).subset held)
      obtain ⟨relative', below', holds', _⟩ :=
        Project.mem_entries.mp ((second.perm_listing hash).subset held')
      exact separates relative below bytes relative' below' bytes' holds holds' digests
  · exact fun moved => moved.text hash

end Texts

/-- The bytes of the files. -/
def Project.files (root : Project) : List (List Byte) :=
  root.entries.filterMap fun entry => match entry.2 with
    | .file bytes => some bytes
    | .symlink _ => none

theorem Project.Holds.mem_files {root : Project} {relative : String} {path : List Name}
    {bytes : List Byte} (holds : root.Holds relative path (.file bytes)) : bytes ∈ root.files :=
  List.mem_filterMap.mpr ⟨(render (ascii relative) path, .file bytes),
    Project.mem_entries.mpr ⟨relative, path, holds, rfl⟩, rfl⟩

theorem length_filled (bytes : List Byte) : ((bytes ++ List.replicate 32 0).take 32).length = 32 := by
  simp

/-- The bytes themselves, cut or filled up. -/
def padded : Sha256 := fun bytes => ⟨(bytes ++ List.replicate 32 0).take 32, length_filled bytes⟩

/-- The texts of the links. -/
def Project.links (root : Project) : List (List Byte) :=
  root.entries.filterMap fun entry => match entry.2 with
    | .file _ => none
    | .symlink target => some target

theorem Project.Holds.mem_links {root : Project} {relative : String} {path : List Name}
    {target : List Byte} (holds : root.Holds relative path (.symlink target)) :
    target ∈ root.links :=
  List.mem_filterMap.mpr ⟨(render (ascii relative) path, .symlink target),
    Project.mem_entries.mpr ⟨relative, path, holds, rfl⟩, rfl⟩

theorem separates_of_files {first second : Project}
    (apart : ∀ bytes ∈ first.files, ∀ bytes' ∈ second.files, hash bytes = hash bytes' →
      bytes = bytes') : Separates hash first second :=
  fun _ _ bytes _ _ bytes' holds holds' => apart bytes holds.mem_files bytes' holds'.mem_files

/-- Two trees with one text, of different files or links, on a hash that keeps their files
apart. No link is followed. -/
def Alike (first second : Project) : Prop :=
  treeText padded (fun _ _ => none) 2 first 1 = treeText padded (fun _ _ => none) 2 second 1 ∧
    (treeText padded (fun _ _ => none) 2 first 1).toOption.isSome ∧
    Separates padded first second ∧ ¬ Same first second

/-- A link before a file of the same directory. -/
def linkBeforeFile : Project := .ofList
  [("src", .directory [(ascii "a", .symlink (ascii "t\nsrc/b")), (ascii "c", .file [1])])] (by decide)

/-- A link before a directory, with a line feed in the directory's name. -/
def linkBeforeDirectory : Project := .ofList
  [("src", .directory [(ascii "a", .symlink (ascii "t")),
    (ascii "b\nsrc", .directory [(ascii "c", .file [1])])])] (by decide)

/-- A link whose text is no text. -/
def linkTo (byte : Byte) (path : nul ∉ [byte]) : Project := .ofList
  [("src", .directory [(ascii "a", .symlink [byte])])] (by simp [Node.wellFormed, listed, path]; decide)

/-- A file whose name is no text, beside the one whose name is shown for it. -/
def shownFor (bytes : List Byte) : Project := .ofList
  [("src", .directory [([0xFF], .file bytes), (Utf8.replacement, .file [2])])] rfl

/-- Trees of which one holds what the other does not are not the same. -/
theorem not_same {first second : Project} {relative : String} (inScope : relative ∈ scopePaths)
    {node node' : Node} (seen : first.seen relative = some node)
    (seen' : second.seen relative = some node') (path : List Name) (leaf : Leaf)
    (held : (path, leaf) ∈ node.leaves) (absent : (path, leaf) ∉ node'.leaves) :
    ¬ Same first second := by
  intro same
  have holds : first.Holds relative path leaf := ⟨inScope, node, seen, Node.mem_leaves.mp held⟩
  obtain ⟨_, there, found, moved⟩ := (same relative path leaf).mp holds
  obtain rfl := Option.some.inj (found.symm.trans seen')
  exact absent (Node.mem_leaves.mpr moved)

end Renvor.Digest
