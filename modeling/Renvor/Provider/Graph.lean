import Renvor.Foundation.Digraph
import Renvor.Provider.Registry

/-! # The resolver graph

Compressed adjacency, the counters its adapter keeps, and one strongly
connected components pass over it. The pass itself is a parameter: what it
returns and what it asks of the graph is a `Renvor.Traversal`, and
`Renvor.TarjanPass` says what the resolver relies on.
-/

namespace Renvor

/-- Why a graph could not be built. -/
inductive GraphSizeError
  | tooManyProviders (declared ceiling : Nat)
  | tooManyEdges (declared ceiling : Nat)
  | unknownDependency (dependent named providerCount : Nat)

/-- Provider `i` has the targets from `offsets[i]` to `offsets[i + 1]`. -/
def dependencySlice (offsets targets : List Nat) (provider : Nat) : List Nat :=
  (targets.drop (offsets.getD provider 0)).take
    (offsets.getD (provider + 1) 0 - offsets.getD provider 0)

/-- Collects the adjacency one provider at a time, in registration order. -/
structure ResolverGraphBuilder where
  offsets : List Nat
  targets : List Nat

/-- A graph every edge of which ends at one of its providers. -/
structure ResolverGraph where
  offsets : List Nat
  targets : List Nat
  inside : ∀ provider < offsets.length - 1, ∀ target ∈ dependencySlice offsets targets provider,
    target < offsets.length - 1

namespace ResolverGraphBuilder

/-- An empty builder. -/
def new : ResolverGraphBuilder := ⟨[0], []⟩

/-- Appends the next provider with its dependencies in declaration order. -/
def pushProvider (builder : ResolverGraphBuilder) (dependencies : List Nat) :
    ResolverGraphBuilder where
  offsets := builder.offsets ++ [(builder.targets ++ dependencies).length]
  targets := builder.targets ++ dependencies

/-- The first declared dependency outside the graph, with its dependent. -/
def firstUnknown (builder : ResolverGraphBuilder) : Option (Nat × Nat) :=
  (List.range (builder.offsets.length - 1)).findSome? fun provider =>
    ((dependencySlice builder.offsets builder.targets provider).find?
      fun named => decide (builder.offsets.length - 1 ≤ named)).map (provider, ·)

theorem firstUnknown_none {builder : ResolverGraphBuilder} :
    builder.firstUnknown = none ↔ ∀ provider < builder.offsets.length - 1,
      ∀ target ∈ dependencySlice builder.offsets builder.targets provider,
        target < builder.offsets.length - 1 := by
  simp only [firstUnknown, List.findSome?_eq_none_iff, List.mem_range, Option.map_eq_none_iff,
    List.find?_eq_none, decide_eq_true_eq, Nat.not_le]

/-- Validates the declared sizes and freezes the graph. -/
def build (builder : ResolverGraphBuilder) : Except GraphSizeError ResolverGraph :=
  if builder.offsets.length - 1 > maxProviders then
    .error (.tooManyProviders (builder.offsets.length - 1) maxProviders)
  else if builder.targets.length > maxEdges then
    .error (.tooManyEdges builder.targets.length maxEdges)
  else match unknown : builder.firstUnknown with
    | some (dependent, named) =>
        .error (.unknownDependency dependent named (builder.offsets.length - 1))
    | none => .ok ⟨builder.offsets, builder.targets, firstUnknown_none.mp unknown⟩

theorem build_ok {builder : ResolverGraphBuilder}
    (few : builder.offsets.length - 1 ≤ maxProviders) (room : builder.targets.length ≤ maxEdges)
    (known : builder.firstUnknown = none) :
    builder.build = .ok ⟨builder.offsets, builder.targets, firstUnknown_none.mp known⟩ := by
  rw [build, if_neg (Nat.not_lt.mpr few), if_neg (Nat.not_lt.mpr room)]
  split
  · next unknown =>
      rw [known] at unknown
      cases unknown
  · rfl

/-- The builder holds these dependency lists, one for each provider. -/
structure Holds (builder : ResolverGraphBuilder) (lists : List (List Nat)) : Prop where
  targets : builder.targets = lists.flatten
  offsets : builder.offsets =
    (List.range (lists.length + 1)).map fun provider => (lists.take provider).flatten.length

theorem new_holds : new.Holds [] := ⟨rfl, rfl⟩

theorem Holds.pushProvider {builder : ResolverGraphBuilder} {lists : List (List Nat)}
    (holds : builder.Holds lists) (dependencies : List Nat) :
    (builder.pushProvider dependencies).Holds (lists ++ [dependencies]) where
  targets := by simp [ResolverGraphBuilder.pushProvider, holds.targets]
  offsets := by
    have earlier : (List.range (lists.length + 1)).map
          (fun provider => ((lists ++ [dependencies]).take provider).flatten.length) =
        builder.offsets := by
      rw [holds.offsets]
      apply List.map_congr_left
      intro provider listed
      have within : provider ≤ lists.length := Nat.lt_succ_iff.mp (List.mem_range.mp listed)
      rw [List.take_append_of_le_length within]
    have whole : (lists ++ [dependencies]).take (lists.length + 1) = lists ++ [dependencies] :=
      List.take_of_length_le (by simp)
    rw [List.length_append, List.length_singleton, List.range_succ, List.map_append, earlier,
      List.map_singleton, whole]
    simp [ResolverGraphBuilder.pushProvider, holds.targets]

theorem Holds.length {builder : ResolverGraphBuilder} {lists : List (List Nat)}
    (holds : builder.Holds lists) : builder.offsets.length - 1 = lists.length := by
  simp [holds.offsets]

/-- The slice of a provider is its list. -/
theorem Holds.slice {builder : ResolverGraphBuilder} {lists : List (List Nat)}
    (holds : builder.Holds lists) {provider : Nat} {list : List Nat}
    (found : lists[provider]? = some list) :
    dependencySlice builder.offsets builder.targets provider = list := by
  obtain ⟨within, same⟩ := List.getElem?_eq_some_iff.mp found
  have offset : ∀ place ≤ lists.length,
      builder.offsets.getD place 0 = (lists.take place).flatten.length := by
    intro place bound
    rw [holds.offsets, List.getD_eq_getElem?_getD, List.getElem?_map,
      List.getElem?_range (Nat.lt_succ_of_le bound)]
    rfl
  have split : lists.flatten =
      (lists.take provider).flatten ++ (list ++ (lists.drop (provider + 1)).flatten) := by
    rw [← same, ← List.flatten_cons, List.getElem_cons_drop, ← List.flatten_append,
      List.take_append_drop]
  have next : (lists.take (provider + 1)).flatten.length =
      (lists.take provider).flatten.length + list.length := by
    rw [← List.take_append_getElem within, List.flatten_append, same]
    simp
  rw [dependencySlice, offset provider within.le, offset (provider + 1) within, next,
    holds.targets, split, List.drop_left, Nat.add_sub_cancel_left, List.take_left]

/-- The slices tile the targets. -/
theorem Holds.slices {builder : ResolverGraphBuilder} {lists : List (List Nat)}
    (holds : builder.Holds lists) :
    (List.range (builder.offsets.length - 1)).flatMap
      (dependencySlice builder.offsets builder.targets) = builder.targets := by
  rw [holds.length, List.flatMap, holds.targets]
  congr 1
  apply List.ext_getElem
  · simp
  · intro provider _ within
    rw [List.getElem_map, List.getElem_range, ← holds.targets]
    exact holds.slice (List.getElem?_eq_getElem within)

end ResolverGraphBuilder

namespace ResolverGraph

/-- The number of providers. -/
def providerCount (graph : ResolverGraph) : Nat := graph.offsets.length - 1

/-- The providers, in registration order. -/
def identifiers (graph : ResolverGraph) : List Nat := List.range graph.providerCount

/-- One provider's declared dependencies, in declaration order. -/
def neighbors (graph : ResolverGraph) (provider : Nat) : List Nat :=
  dependencySlice graph.offsets graph.targets provider

/-- An edge from a dependent to a dependency. -/
def Edge (graph : ResolverGraph) (dependent dependency : Nat) : Prop :=
  dependent < graph.providerCount ∧ dependency ∈ graph.neighbors dependent

/-- Whether a provider names itself. -/
def hasSelfEdge (graph : ResolverGraph) (provider : Nat) : Bool :=
  (graph.neighbors provider).any (· == provider)

end ResolverGraph

/-! ## One components pass and its counters -/

/-- One thing a traversal asks of the graph. -/
inductive Query
  /-- The identifier iterator yielded a provider. -/
  | identifier (provider : Nat)
  /-- The neighbour list of a provider was requested. -/
  | neighbors (provider : Nat)
  /-- A neighbour iterator yielded a target. -/
  | neighbor (target : Nat)

namespace Query

/-- The provider an identifier query yielded. -/
def identified : Query → Option Nat
  | .identifier provider => some provider
  | _ => none

/-- The provider whose neighbours a query requested. -/
def visited : Query → Option Nat
  | .neighbors provider => some provider
  | _ => none

/-- The target a neighbour query yielded. -/
def walked : Query → Option Nat
  | .neighbor target => some target
  | _ => none

end Query

/-- What one pass over a graph returned, and what it asked on the way. -/
structure Traversal where
  components : List (List Nat)
  queries : List Query

/-- The two counters of the adapter. -/
structure WorkCounters where
  providerExaminations : Nat
  edgeExaminations : Nat

namespace WorkCounters

/-- Every yielded identifier and every requested neighbour list examines a
provider; every yielded neighbour examines an edge. -/
def count (counters : WorkCounters) : Query → WorkCounters
  | .identifier _ | .neighbors _ =>
      { counters with providerExaminations := saturatingAdd counters.providerExaminations 1 }
  | .neighbor _ => { counters with edgeExaminations := saturatingAdd counters.edgeExaminations 1 }

def totalWorkUnits (counters : WorkCounters) : Nat :=
  saturatingAdd counters.providerExaminations counters.edgeExaminations

end WorkCounters

/-- The most a resolution of a graph of this size may examine. -/
structure Allowances where
  providerExaminations : Nat
  edgeExaminations : Nat
  totalWorkUnits : Nat

def Allowances.forGraph (providers edges : Nat) : Allowances where
  providerExaminations := saturatingMul providers 2
  edgeExaminations := saturatingMul edges 2
  totalWorkUnits := saturatingAdd (saturatingMul providers 2) (saturatingMul edges 2)

/-- One strongly connected component. -/
structure Component where
  members : List Nat
  isCycle : Bool

/-- The components of one pass and the counters it left. -/
structure Resolution where
  components : List Component
  counters : WorkCounters

/-- Resolves the graph in one pass. A component is a cycle when it has several
members, or one that names itself. -/
def ResolverGraph.resolve (tarjanScc : ResolverGraph → Traversal) (graph : ResolverGraph) :
    Resolution where
  components := (tarjanScc graph).components.map fun members =>
    ⟨members, decide (members.length > 1) ||
      (match members.head? with
        | some only => graph.hasSelfEdge only
        | none => false)⟩
  counters := (tarjanScc graph).queries.foldl WorkCounters.count ⟨0, 0⟩

namespace Resolution

/-- Every component that is a dependency cycle. -/
def cycles (resolution : Resolution) : List Component :=
  resolution.components.filter Component.isCycle

/-- The flattened component order. -/
def initialisationOrder (resolution : Resolution) : List Nat :=
  resolution.components.flatMap Component.members

/-- Checks the counters against the allowances; the first axis exceeded is
named. -/
def checkBudget (resolution : Resolution) (providers edges : Nat) : Except KernelError Unit :=
  let allowances := Allowances.forGraph providers edges
  let observed := resolution.counters
  if observed.providerExaminations > allowances.providerExaminations then
    .error (.internal .providerExaminations observed.providerExaminations
      allowances.providerExaminations)
  else if observed.edgeExaminations > allowances.edgeExaminations then
    .error (.internal .edgeExaminations observed.edgeExaminations allowances.edgeExaminations)
  else if observed.totalWorkUnits > allowances.totalWorkUnits then
    .error (.internal .totalWorkUnits observed.totalWorkUnits allowances.totalWorkUnits)
  else .ok ()

end Resolution

/-- What the resolver relies on of a components pass: it returns every strongly
connected component in postorder, it takes each provider from the identifiers
once, and it walks the neighbours of each provider once, to the end. -/
structure TarjanPass (graph : ResolverGraph) (traversal : Traversal) : Prop where
  components : Foundation.PostorderComponents graph.Edge graph.identifiers traversal.components
  identifiers : (traversal.queries.filterMap Query.identified).Perm graph.identifiers
  visits : (traversal.queries.filterMap Query.visited).Perm graph.identifiers
  edges : (traversal.queries.filterMap Query.walked).Perm
    (graph.identifiers.flatMap graph.neighbors)

namespace TarjanPass

variable {graph : ResolverGraph} {traversal : Traversal}

/-- The counters are at most the numbers of queries counted. -/
private theorem count_le (queries : List Query) (counters : WorkCounters) :
    (queries.foldl WorkCounters.count counters).providerExaminations ≤
        counters.providerExaminations + ((queries.filterMap Query.identified).length +
          (queries.filterMap Query.visited).length) ∧
      (queries.foldl WorkCounters.count counters).edgeExaminations ≤
        counters.edgeExaminations + (queries.filterMap Query.walked).length := by
  induction queries generalizing counters with
  | nil => simp
  | cons query rest ih =>
      obtain ⟨providers, edges⟩ := ih (counters.count query)
      rw [List.foldl_cons]
      cases query <;>
        simp only [WorkCounters.count, saturatingAdd] at providers edges <;>
        simp only [List.filterMap_cons, Query.identified, Query.visited, Query.walked,
          WorkCounters.count, saturatingAdd, List.length_cons] <;>
        omega

/-- **The budget is never exceeded**: every provider is examined twice and
every edge once. -/
theorem checkBudget (pass : TarjanPass graph traversal) {tarjanScc : ResolverGraph → Traversal}
    (same : tarjanScc graph = traversal) {edges : Nat}
    (total : (graph.identifiers.flatMap graph.neighbors).length = edges)
    (few : graph.providerCount ≤ maxProviders) (room : edges ≤ maxEdges) :
    (graph.resolve tarjanScc).checkBudget graph.providerCount edges = .ok () := by
  obtain ⟨providers, neighbours⟩ := count_le traversal.queries ⟨0, 0⟩
  rw [pass.identifiers.length_eq, pass.visits.length_eq, ResolverGraph.identifiers,
    List.length_range] at providers
  rw [pass.edges.length_eq, total] at neighbours
  rw [Nat.zero_add] at providers neighbours
  have counters : (graph.resolve tarjanScc).counters =
      traversal.queries.foldl WorkCounters.count ⟨0, 0⟩ := by rw [ResolverGraph.resolve, same]
  simp only [maxProviders, maxEdges] at few room
  simp only [Resolution.checkBudget, counters, Allowances.forGraph, WorkCounters.totalWorkUnits,
    saturatingAdd, saturatingMul, u32Max]
  rw [if_neg (by omega), if_neg (by omega), if_neg (by omega)]

/-- A component of the pass is reported as a cycle unless it is one provider
that does not name itself. -/
private theorem isCycle_iff (pass : TarjanPass graph traversal)
    {tarjanScc : ResolverGraph → Traversal} (same : tarjanScc graph = traversal)
    {component : Component} (listed : component ∈ (graph.resolve tarjanScc).components) :
    component.members ∈ traversal.components ∧ (component.isCycle = false ↔
      ∃ node, component.members = [node] ∧ ¬ graph.Edge node node) := by
  simp only [ResolverGraph.resolve, same, List.mem_map] at listed
  obtain ⟨members, found, rfl⟩ := listed
  refine ⟨found, ?_⟩
  obtain ⟨only, rest, rfl⟩ := List.exists_cons_of_ne_nil (pass.components.nonempty _ found)
  have inside : only < graph.providerCount := by
    have flat : only ∈ traversal.components.flatten :=
      List.mem_flatten.mpr ⟨_, found, List.mem_cons_self⟩
    exact List.mem_range.mp (pass.components.partition.mem_iff.mp flat)
  cases rest with
  | nil =>
      simp only [List.length_singleton, gt_iff_lt, lt_self_iff_false, decide_false,
        List.head?_cons, Bool.false_or, ResolverGraph.hasSelfEdge, ResolverGraph.Edge,
        List.cons.injEq, and_true, exists_eq_left', inside, true_and]
      rw [← Bool.not_eq_true, List.any_eq_true]
      simp
  | cons other rest => simp

/-- **No component is reported exactly when the graph has no cycle.** -/
theorem cycles_nil (pass : TarjanPass graph traversal) {tarjanScc : ResolverGraph → Traversal}
    (same : tarjanScc graph = traversal) :
    (graph.resolve tarjanScc).cycles = [] ↔ Foundation.Acyclic graph.Edge := by
  have inside : ∀ first second, graph.Edge first second → first ∈ graph.identifiers :=
    fun first _ step => List.mem_range.mpr step.1
  rw [pass.components.acyclic_iff inside List.nodup_range, Resolution.cycles,
    List.filter_eq_nil_iff]
  constructor
  · intro none members found
    have listed : members ∈ (graph.resolve tarjanScc).components.map Component.members := by
      simpa [ResolverGraph.resolve, same] using found
    obtain ⟨component, reported, rfl⟩ := List.mem_map.mp listed
    have quiet := none component reported
    rw [Bool.not_eq_true] at quiet
    exact ((pass.isCycle_iff same reported).2).mp quiet
  · intro single component reported
    obtain ⟨found, cycle⟩ := pass.isCycle_iff same reported
    rw [Bool.not_eq_true]
    exact cycle.mpr (single _ found)

/-- A reported cycle is one whole strongly connected component, and its members
lie on a cycle. -/
theorem cycle_whole (pass : TarjanPass graph traversal) {tarjanScc : ResolverGraph → Traversal}
    (same : tarjanScc graph = traversal) {component : Component}
    (reported : component ∈ (graph.resolve tarjanScc).cycles) :
    component.members.Nodup ∧ ∃ first ∈ component.members,
      Relation.TransGen graph.Edge first first ∧ ∀ second,
        second ∈ component.members ↔ Foundation.StronglyConnected graph.Edge first second := by
  obtain ⟨listed, cyclic⟩ := List.mem_filter.mp reported
  obtain ⟨found, single⟩ := pass.isCycle_iff same listed
  have distinct : component.members.Nodup :=
    (pass.components.partition.nodup_iff.mpr List.nodup_range).sublist
      (List.sublist_flatten_of_mem found)
  obtain ⟨first, rest, whole⟩ :=
    List.exists_cons_of_ne_nil (pass.components.nonempty _ found)
  have member : first ∈ component.members := by rw [whole]; exact List.mem_cons_self
  refine ⟨distinct, first, member, ?_, ?_⟩
  · cases rest with
    | nil =>
        by_contra quiet
        rw [single.mpr ⟨first, whole, fun loop => quiet (.single loop)⟩] at cyclic
        cases cyclic
    | cons other rest =>
        have second : other ∈ component.members := by simp [whole]
        have different : first ≠ other := by
          rw [whole] at distinct
          exact fun twice => (List.nodup_cons.mp distinct).1 (by simp [twice])
        exact (pass.components.connected _ found first member other second).cycle different
  · intro second
    exact ⟨pass.components.connected _ found first member second,
      pass.components.complete _ found first member second⟩

/-- Without cycles the initialisation order holds every provider once, each one
after its dependencies. -/
theorem initialisationOrder_ordered (pass : TarjanPass graph traversal)
    {tarjanScc : ResolverGraph → Traversal} (same : tarjanScc graph = traversal)
    (acyclic : Foundation.Acyclic graph.Edge) :
    (graph.resolve tarjanScc).initialisationOrder.Perm graph.identifiers ∧
      ∀ front dependent rest,
        (graph.resolve tarjanScc).initialisationOrder = front ++ dependent :: rest →
        ∀ dependency, graph.Edge dependent dependency → dependency ∈ front := by
  have flat : (graph.resolve tarjanScc).initialisationOrder = traversal.components.flatten := by
    simp [Resolution.initialisationOrder, ResolverGraph.resolve, same, List.flatMap_map,
      List.flatMap_id']
  rw [flat]
  refine ⟨pass.components.partition, ?_⟩
  intro front dependent rest split dependency step
  have within := graph.inside dependent step.1 dependency step.2
  have listed : dependency ∈ traversal.components.flatten :=
    pass.components.partition.mem_iff.mpr (List.mem_range.mpr within)
  exact Foundation.target_before (pass.components.flatten_ordered acyclic) acyclic split listed
    step

end TarjanPass

end Renvor
