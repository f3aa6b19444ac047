import Renvor.Provider.Graph
import Mathlib.Logic.Function.Basic

/-! # Resolving the initialisation order

The resolver maps every capability to the one provider that offers it, turns
the declared dependencies into edges from dependent to dependency, and takes
the order from one components pass.

The main theorem (`Renvor.resolves_as_declared_iff`) says for which registries
the resolver accepts exactly the well-formed ones.
-/

namespace Renvor

/-- The capability map: which position offers a capability. -/
abbrev Offered := CapabilityId → Option Nat

namespace ProviderRegistry

variable (registry : ProviderRegistry)

/-- The provider at a registration position, or the position itself where there
is none. -/
def idAt (position : Nat) : ProviderId :=
  match registry.get position with
  | some provider => provider.id
  | none => ⟨s!"<unregistered position {position}>"⟩

def nameAt (position : Nat) : String := (registry.idAt position).name

/-- Offers the capabilities of the provider at a position. -/
def offerEach (position : Nat) (provider : Provider) :
    List CapabilityId → Offered → Except KernelError Offered
  | [], offered => .ok offered
  | capability :: rest, offered =>
      match offered capability with
      | some first =>
          .error (.capabilityDuplicate capability.name (registry.nameAt first) provider.id.name)
      | none => offerEach position provider rest
          (Function.update offered capability (some position))

/-- Offers the capabilities of the providers from a position on. -/
def offerFrom : Nat → List Provider → Offered → Except KernelError Offered
  | _, [], offered => .ok offered
  | position, provider :: rest, offered =>
      match registry.offerEach position provider provider.provides offered with
      | .error error => .error error
      | .ok offered => offerFrom (position + 1) rest offered

/-- The capability map. The positions fit `u32`: the provider ceiling has been
checked. -/
def offer : Except KernelError Offered :=
  registry.offerFrom 0 registry.providers fun _ => none

/-- The positions one provider depends on, in declaration order. -/
def targetsOf (offered : Offered) (provider : Provider) :
    List CapabilityId → Except KernelError (List Nat)
  | [] => .ok []
  | capability :: rest =>
      match offered capability with
      | none => .error (.dependencyMissing provider.id.name capability.name)
      | some target =>
          match targetsOf offered provider rest with
          | .error error => .error error
          | .ok targets => .ok (target :: targets)

/-- Pushes the providers into the graph builder. -/
def declareEdges (offered : Offered) :
    List Provider → ResolverGraphBuilder → Except KernelError ResolverGraphBuilder
  | [], builder => .ok builder
  | provider :: rest, builder =>
      match targetsOf offered provider provider.dependencies with
      | .error error => .error error
      | .ok targets => declareEdges offered rest (builder.pushProvider targets)

/-- A graph-construction refusal in the kernel's terms. -/
def sizeError : GraphSizeError → KernelError
  | .tooManyProviders declared ceiling => .limitExceeded "provider" ceiling declared
  | .tooManyEdges declared ceiling => .limitExceeded "dependency edge" ceiling declared
  | .unknownDependency dependent named providerCount =>
      .dependencyMissing (registry.nameAt dependent)
        (s!"<registration position {named}, which is outside the {providerCount} " ++
          "registered providers>")

/-- The declared size and the graph, before any traversal. -/
def declaredGraph : Except KernelError (DeclaredSize × ResolverGraph) := do
  let size ← registry.declaredSize
  let offered ← registry.offer
  let builder ← declareEdges offered registry.providers .new
  let graph ← builder.build.mapError registry.sizeError
  return (size, graph)

/-- Resolves the registration set into one initialisation order. -/
def resolve (tarjanScc : ResolverGraph → Traversal) :
    Except KernelError (InitialisationOrder × ResolutionReport) := do
  let (size, graph) ← registry.declaredGraph
  let resolution := graph.resolve tarjanScc
  resolution.checkBudget size.providers size.edges
  match resolution.cycles.head? with
  | some cycle => throw (.dependencyCycle (cycle.members.map registry.nameAt))
  | none => return (
      ⟨resolution.initialisationOrder.map fun position => (position, registry.idAt position)⟩,
      ⟨size.providers, size.edges, resolution.counters.providerExaminations,
        resolution.counters.edgeExaminations, resolution.counters.totalWorkUnits⟩)

/-! ## The capability map -/

variable {registry}

/-- Offering a provider's capabilities succeeds exactly when they are new and
named once, and then adds each at the position. -/
private theorem offerEach_ok (position : Nat) (provider : Provider)
    (capabilities : List CapabilityId) (offered after : Offered) :
    registry.offerEach position provider capabilities offered = .ok after ↔
      capabilities.Nodup ∧ (∀ capability ∈ capabilities, offered capability = none) ∧
      after = fun capability =>
        if capability ∈ capabilities then some position else offered capability := by
  induction capabilities generalizing offered with
  | nil =>
      simp only [offerEach, Except.ok.injEq, List.nodup_nil, List.not_mem_nil, if_false, true_and]
      simp [eq_comm]
  | cons capability rest ih =>
      rw [offerEach]
      cases found : offered capability with
      | some first =>
          simp only [reduceCtorEq, false_iff, not_and]
          intro _ fresh
          have absent := fresh capability List.mem_cons_self
          rw [found] at absent
          cases absent
      | none =>
          simp only [ih, List.nodup_cons]
          constructor
          · rintro ⟨distinct, fresh, rfl⟩
            have absent : capability ∉ rest := by
              intro twice
              have free := fresh capability twice
              rw [Function.update_self] at free
              cases free
            refine ⟨⟨absent, distinct⟩, ?_, ?_⟩
            · intro other listed
              rcases List.mem_cons.mp listed with rfl | later
              · exact found
              · have free := fresh other later
                rwa [Function.update_of_ne (ne_of_mem_of_not_mem later absent)] at free
            · funext other
              by_cases same : other = capability
              · subst same
                simp [absent]
              · simp [same]
          · rintro ⟨⟨absent, distinct⟩, fresh, rfl⟩
            refine ⟨distinct, ?_, ?_⟩
            · intro other later
              rw [Function.update_of_ne (ne_of_mem_of_not_mem later absent)]
              exact fresh other (List.mem_cons_of_mem _ later)
            · funext other
              by_cases same : other = capability
              · subst same
                simp [absent]
              · simp [same]

/-- A refusal to offer is a duplicate. -/
private theorem offerEach_error {position : Nat} {provider : Provider}
    {capabilities : List CapabilityId} {offered : Offered} {error : KernelError}
    (refused : registry.offerEach position provider capabilities offered = .error error) :
    ∃ capability first second, error = .capabilityDuplicate capability first second := by
  induction capabilities generalizing offered with
  | nil => cases refused
  | cons capability rest ih =>
      rw [offerEach] at refused
      split at refused
      · exact ⟨_, _, _, (Except.error.inj refused).symm⟩
      · exact ih refused

private theorem offerFrom_error {start : Nat} {providers : List Provider} {offered : Offered}
    {error : KernelError} (refused : registry.offerFrom start providers offered = .error error) :
    ∃ capability first second, error = .capabilityDuplicate capability first second := by
  induction providers generalizing start offered with
  | nil => cases refused
  | cons provider rest ih =>
      rw [offerFrom] at refused
      split at refused
      · next failed =>
          cases refused
          exact offerEach_error failed
      · exact ih refused

/-- Offering succeeds exactly when no capability is offered a second time. -/
private theorem offerFrom_isOk (start : Nat) (providers : List Provider) (offered : Offered) :
    (∃ after, registry.offerFrom start providers offered = .ok after) ↔
      (providers.flatMap Provider.provides).Nodup ∧
      ∀ capability ∈ providers.flatMap Provider.provides, offered capability = none := by
  induction providers generalizing start offered with
  | nil => simp [offerFrom]
  | cons provider rest ih =>
      simp only [offerFrom, List.flatMap_cons, List.nodup_append', List.mem_append]
      cases step : registry.offerEach start provider provider.provides offered with
      | error error =>
          simp only [reduceCtorEq, exists_false, false_iff]
          rintro ⟨⟨distinct, _⟩, fresh⟩
          have spare : ∀ capability ∈ provider.provides, offered capability = none :=
            fun capability listed => fresh capability (Or.inl listed)
          have succeeds := (@offerEach_ok registry start provider _ offered _).mpr
            ⟨distinct, spare, rfl⟩
          rw [step] at succeeds
          cases succeeds
      | ok between =>
          obtain ⟨distinct, fresh, rfl⟩ := (offerEach_ok start provider _ _ _).mp step
          simp only [ih]
          constructor
          · rintro ⟨others, free⟩
            refine ⟨⟨distinct, others, ?_⟩, ?_⟩
            · intro capability offers later
              have absent := free capability later
              rw [if_pos offers] at absent
              cases absent
            · rintro capability (offers | later)
              · exact fresh capability offers
              · have absent := free capability later
                split at absent
                · cases absent
                · exact absent
          · rintro ⟨⟨_, others, disjoint⟩, free⟩
            refine ⟨others, ?_⟩
            intro capability later
            rw [if_neg fun offers => disjoint offers later]
            exact free capability (Or.inr later)

/-- What the capability map holds once every provider has offered. -/
private theorem offerFrom_holds {start : Nat} {providers : List Provider}
    {offered after : Offered} (offers : registry.offerFrom start providers offered = .ok after)
    (capability : CapabilityId) (position : Nat) :
    after capability = some position ↔ offered capability = some position ∨
      ∃ index provider, providers[index]? = some provider ∧ position = start + index ∧
        capability ∈ provider.provides := by
  induction providers generalizing start offered with
  | nil =>
      cases offers
      simp
  | cons provider rest ih =>
      rw [offerFrom] at offers
      split at offers
      · cases offers
      next between step =>
      obtain ⟨_, fresh, rfl⟩ := (offerEach_ok start provider _ _ _).mp step
      rw [ih offers]
      constructor
      · rintro (here | ⟨index, later, found, rfl, listed⟩)
        · split at here
          · next listed =>
              exact Or.inr ⟨0, provider, rfl, (Option.some.inj here).symm, listed⟩
          · exact Or.inl here
        · exact Or.inr ⟨index + 1, later, found, by omega, listed⟩
      · rintro (before | ⟨index, found, at_, rfl, listed⟩)
        · refine Or.inl ?_
          rw [if_neg, before]
          intro listed
          rw [fresh capability listed] at before
          cases before
        · cases index with
          | zero =>
              cases at_
              exact Or.inl (by rw [if_pos listed, Nat.add_zero])
          | succ index => exact Or.inr ⟨index, found, at_, by omega, listed⟩

/-- The capability map exists exactly when no capability is offered by two
providers or twice by one. -/
theorem offer_isOk : (∃ offered, registry.offer = .ok offered) ↔
    registry.OfferedByOne ∧ ∀ provider ∈ registry.providers, provider.provides.Nodup := by
  rw [offer, offerFrom_isOk, List.nodup_flatMap, and_comm]
  simp only [implies_true, true_and, List.pairwise_iff_getElem, Function.onFun]
  rw [and_comm]
  refine and_congr_left fun _ => ?_
  constructor
  · intro apart first second left right capability atFirst atSecond offers also
    obtain ⟨low, rfl⟩ := List.getElem?_eq_some_iff.mp atFirst
    obtain ⟨high, rfl⟩ := List.getElem?_eq_some_iff.mp atSecond
    rcases Nat.lt_trichotomy first second with before | same | after
    · exact (apart first second low high before offers also).elim
    · exact same
    · exact (apart second first high low after also offers).elim
  · intro one first second low high before capability offers also
    have same := one first second _ _ capability (List.getElem?_eq_getElem low)
      (List.getElem?_eq_getElem high) offers also
    omega

/-- The capability map sends a capability to the provider offering it. -/
theorem offer_holds {offered : Offered} (offers : registry.offer = .ok offered)
    (capability : CapabilityId) (position : Nat) :
    offered capability = some position ↔
      ∃ provider, registry.get position = some provider ∧ capability ∈ provider.provides := by
  rw [offerFrom_holds offers]
  simp [get]

/-! ## The declared graph -/

/-- The targets exist exactly when every dependency is offered. -/
private theorem targetsOf_ok (offered : Offered) (provider : Provider)
    (capabilities : List CapabilityId) (targets : List Nat) :
    targetsOf offered provider capabilities = .ok targets ↔
      (∀ capability ∈ capabilities, (offered capability).isSome) ∧
        targets = capabilities.filterMap offered := by
  induction capabilities generalizing targets with
  | nil =>
      constructor
      · intro empty
        cases empty
        exact ⟨by simp, rfl⟩
      · rintro ⟨_, rfl⟩
        rfl
  | cons capability rest ih =>
      rw [targetsOf, List.forall_mem_cons]
      cases found : offered capability with
      | none => simp
      | some target =>
          rw [List.filterMap_cons_some found]
          cases others : targetsOf offered provider rest with
          | error error =>
              simp only [reduceCtorEq, Option.isSome_some, true_and, false_iff, not_and]
              intro present
              have succeeds := (ih _).mpr ⟨present, rfl⟩
              rw [others] at succeeds
              cases succeeds
          | ok later =>
              obtain ⟨present, rfl⟩ := (ih later).mp others
              constructor
              · intro same
                cases same
                exact ⟨⟨rfl, present⟩, rfl⟩
              · rintro ⟨_, rfl⟩
                rfl

private theorem targetsOf_error {offered : Offered} {provider : Provider}
    {capabilities : List CapabilityId} {error : KernelError}
    (refused : targetsOf offered provider capabilities = .error error) :
    ∃ dependent capability, error = .dependencyMissing dependent capability := by
  induction capabilities with
  | nil => cases refused
  | cons capability rest ih =>
      rw [targetsOf] at refused
      split at refused
      · exact ⟨_, _, (Except.error.inj refused).symm⟩
      · split at refused
        · next failed =>
            cases refused
            exact ih failed
        · cases refused

/-- Declaring the edges succeeds exactly when every dependency is offered, and
pushes each provider's targets in order. -/
private theorem declareEdges_ok (offered : Offered) (providers : List Provider)
    (builder after : ResolverGraphBuilder) :
    declareEdges offered providers builder = .ok after ↔
      (∀ provider ∈ providers, ∀ capability ∈ provider.dependencies,
        (offered capability).isSome) ∧
      after = providers.foldl (fun builder provider =>
        builder.pushProvider (provider.dependencies.filterMap offered)) builder := by
  induction providers generalizing builder with
  | nil =>
      constructor
      · intro same
        cases same
        exact ⟨by simp, rfl⟩
      · rintro ⟨_, rfl⟩
        rfl
  | cons provider rest ih =>
      rw [declareEdges, List.forall_mem_cons, List.foldl_cons]
      cases targets : targetsOf offered provider provider.dependencies with
      | error error =>
          simp only [reduceCtorEq, false_iff]
          rintro ⟨⟨present, _⟩, _⟩
          have succeeds := (targetsOf_ok offered provider _ _).mpr ⟨present, rfl⟩
          rw [targets] at succeeds
          cases succeeds
      | ok declared =>
          obtain ⟨present, rfl⟩ := (targetsOf_ok _ _ _ _).mp targets
          simp only [ih, and_assoc]
          exact (and_iff_right present).symm

private theorem declareEdges_error {offered : Offered} {providers : List Provider}
    {builder : ResolverGraphBuilder} {error : KernelError}
    (refused : declareEdges offered providers builder = .error error) :
    ∃ dependent capability, error = .dependencyMissing dependent capability := by
  induction providers generalizing builder with
  | nil => cases refused
  | cons provider rest ih =>
      rw [declareEdges] at refused
      split at refused
      · next failed =>
          cases refused
          exact targetsOf_error failed
      · exact ih refused

/-- Pushing every provider's targets holds their lists. -/
private theorem declareEdges_holds (offered : Offered) (providers : List Provider)
    {builder : ResolverGraphBuilder} {lists : List (List Nat)} (holds : builder.Holds lists) :
    (providers.foldl (fun builder provider =>
        builder.pushProvider (provider.dependencies.filterMap offered)) builder).Holds
      (lists ++ providers.map fun provider => provider.dependencies.filterMap offered) := by
  induction providers generalizing builder lists with
  | nil => simpa using holds
  | cons provider rest ih =>
      have pushed := ih (holds.pushProvider (provider.dependencies.filterMap offered))
      rwa [List.append_assoc] at pushed

/-- A graph that carries the declared dependencies of a registry, in sizes
within the ceilings. -/
structure Declared (registry : ProviderRegistry) (size : DeclaredSize) (graph : ResolverGraph) :
    Prop where
  ceilings : registry.WithinCeilings
  one : registry.OfferedByOne
  once : ∀ provider ∈ registry.providers, provider.provides.Nodup
  offered : registry.DependenciesOffered
  size : size = ⟨registry.len, registry.edgeTotal⟩
  count : graph.providerCount = registry.len
  edges : (graph.identifiers.flatMap graph.neighbors).length = registry.edgeTotal
  edge : graph.Edge = registry.DependsOn

/-- The builder a registry's declarations fill. -/
private def declaredBuilder (registry : ProviderRegistry) (offered : Offered) :
    ResolverGraphBuilder :=
  registry.providers.foldl (fun builder provider =>
    builder.pushProvider (provider.dependencies.filterMap offered)) .new

/-- The builder holds one list of targets for each provider. -/
private theorem declaredBuilder_holds (offered : Offered) :
    (registry.declaredBuilder offered).Holds
      (registry.providers.map fun provider => provider.dependencies.filterMap offered) :=
  declareEdges_holds offered registry.providers ResolverGraphBuilder.new_holds

/-- The targets of a provider's slice are the positions it depends on. -/
private theorem declaredBuilder_slice {offered : Offered} (offers : registry.offer = .ok offered)
    {dependent : Nat} {provider : Provider} (found : registry.get dependent = some provider)
    (dependency : Nat) :
    dependency ∈ dependencySlice (registry.declaredBuilder offered).offsets
        (registry.declaredBuilder offered).targets dependent ↔
      registry.DependsOn dependent dependency := by
  have list : (registry.providers.map fun provider => provider.dependencies.filterMap offered)[
      dependent]? = some (provider.dependencies.filterMap offered) := by
    rw [List.getElem?_map]
    exact congrArg _ found
  rw [(declaredBuilder_holds offered).slice list, List.mem_filterMap]
  constructor
  · rintro ⟨capability, declares, sent⟩
    obtain ⟨other, at_, listed⟩ := (offer_holds offers capability dependency).mp sent
    exact ⟨provider, other, capability, found, at_, declares, listed⟩
  · rintro ⟨same, other, capability, again, at_, declares, listed⟩
    rw [found] at again
    cases again
    exact ⟨capability, declares, (offer_holds offers capability dependency).mpr
      ⟨other, at_, listed⟩⟩

/-- Every dependency is in the capability map exactly when it is offered. -/
private theorem present_iff {offered : Offered} (offers : registry.offer = .ok offered) :
    (∀ provider ∈ registry.providers, ∀ capability ∈ provider.dependencies,
      (offered capability).isSome) ↔ registry.DependenciesOffered := by
  refine forall₂_congr fun provider _ => forall₂_congr fun capability _ => ?_
  rw [Option.isSome_iff_exists]
  simp only [offer_holds offers, mem_providers]
  constructor
  · rintro ⟨position, other, at_, listed⟩
    exact ⟨other, ⟨position, at_⟩, listed⟩
  · rintro ⟨other, ⟨position, at_⟩, listed⟩
    exact ⟨position, other, at_, listed⟩

/-- The builder freezes into the declared graph. -/
private theorem declaredBuilder_build {offered : Offered} (ceilings : registry.WithinCeilings)
    (offers : registry.offer = .ok offered) (present : registry.DependenciesOffered) :
    ∃ graph, (registry.declaredBuilder offered).build = .ok graph ∧
      Declared registry ⟨registry.len, registry.edgeTotal⟩ graph := by
  have holds := @declaredBuilder_holds registry offered
  have count : (registry.declaredBuilder offered).offsets.length - 1 = registry.len := by
    rw [holds.length, List.length_map]
    rfl
  have edges : (registry.declaredBuilder offered).targets.length = registry.edgeTotal := by
    rw [holds.targets, List.length_flatten, List.map_map, edgeTotal]
    congr 1
    apply List.map_congr_left
    intro provider listed
    exact List.filterMap_length_eq_length.mpr ((present_iff offers).mpr present provider listed)
  have known : (registry.declaredBuilder offered).firstUnknown = none := by
    rw [ResolverGraphBuilder.firstUnknown_none, count]
    intro dependent within dependency member
    have found := List.getElem?_eq_getElem within
    obtain ⟨_, other, _, _, at_, _⟩ := (declaredBuilder_slice offers found dependency).mp member
    exact get_some_lt at_
  obtain ⟨one, once⟩ := offer_isOk.mp ⟨offered, offers⟩
  refine ⟨_, ResolverGraphBuilder.build_ok (count ▸ ceilings.providers)
    (edges ▸ ceilings.edges) known, ceilings, one, once, present, rfl, count, ?_, ?_⟩
  · exact (congrArg List.length holds.slices).trans edges
  · funext dependent dependency
    apply propext
    constructor
    · rintro ⟨within, member⟩
      have found := List.getElem?_eq_getElem (l := registry.providers) (within.trans_eq count)
      exact (declaredBuilder_slice offers found dependency).mp member
    · rintro ⟨provider, depends⟩
      obtain ⟨_, _, found, _⟩ := id depends
      refine ⟨?_, (declaredBuilder_slice offers found dependency).mpr ⟨provider, depends⟩⟩
      exact (get_some_lt found).trans_eq count.symm

/-- A graph that was declared carries the registry's declarations. -/
theorem declaredGraph_ok {size : DeclaredSize} {graph : ResolverGraph}
    (declared : registry.declaredGraph = .ok (size, graph)) : registry.Declared size graph := by
  simp only [declaredGraph, bind, Except.bind] at declared
  split at declared
  · cases declared
  next sized checked =>
  split at declared
  · cases declared
  next offered offers =>
  split at declared
  · cases declared
  next builder filled =>
  obtain ⟨ceilings, rfl⟩ := (declaredSize_ok sized).mp checked
  obtain ⟨present, rfl⟩ := (declareEdges_ok _ _ _ _).mp filled
  obtain ⟨built, frozen, holds⟩ :=
    declaredBuilder_build ceilings offers ((present_iff offers).mp present)
  rw [declaredBuilder] at frozen
  simp only [frozen, Except.mapError, pure, Except.pure] at declared
  cases declared
  exact holds

/-- **The graph is declared** for every registry within the ceilings whose
capabilities are offered once and whose dependencies are offered. -/
theorem declaredGraph_isOk (ceilings : registry.WithinCeilings) (one : registry.OfferedByOne)
    (once : ∀ provider ∈ registry.providers, provider.provides.Nodup)
    (offered : registry.DependenciesOffered) :
    ∃ size graph, registry.declaredGraph = .ok (size, graph) := by
  obtain ⟨map, offers⟩ := offer_isOk.mpr ⟨one, once⟩
  have checked := (@declaredSize_ok registry _).mpr ⟨ceilings, rfl⟩
  have filled := (declareEdges_ok map registry.providers .new _).mpr
    ⟨(present_iff offers).mpr offered, rfl⟩
  obtain ⟨graph, frozen, _⟩ := declaredBuilder_build ceilings offers offered
  rw [declaredBuilder] at frozen
  refine ⟨⟨registry.len, registry.edgeTotal⟩, graph, ?_⟩
  simp only [declaredGraph, bind, Except.bind, checked, offers, filled, frozen, Except.mapError,
    pure, Except.pure]

/-- Before the traversal only the declarations are refused: neither a cycle nor
a budget is reported. -/
theorem declaredGraph_error {error : KernelError}
    (refused : registry.declaredGraph = .error error) :
    (∀ names, error ≠ .dependencyCycle names) ∧
      ∀ axis observed allowed, error ≠ .internal axis observed allowed := by
  simp only [declaredGraph, bind, Except.bind] at refused
  split at refused
  · next failed =>
      cases refused
      obtain ⟨_, _, _, rfl⟩ := declaredSize_error failed
      simp
  split at refused
  · next failed =>
      cases refused
      obtain ⟨_, _, _, rfl⟩ := offerFrom_error failed
      simp
  split at refused
  · next failed =>
      cases refused
      obtain ⟨_, _, rfl⟩ := declareEdges_error failed
      simp
  split at refused
  · next failed =>
      cases refused
      simp only [Except.mapError] at failed
      split at failed
      · next size _ =>
          cases failed
          cases size <;> simp [sizeError]
      · cases failed
  · cases refused

/-! ## The resolver -/

/-- What the declarations must meet: the ceilings, one provider for each
capability, a provider for each dependency, and no cycle. -/
structure Acceptable (registry : ProviderRegistry) : Prop where
  ceilings : registry.WithinCeilings
  one : registry.OfferedByOne
  offered : registry.DependenciesOffered
  acyclic : Foundation.Acyclic registry.DependsOn

/-- The resolver answers as declared: it accepts exactly the acceptable
registries, the order holds every position after all it depends on, a reported
cycle is one whole strongly connected component, and the work budget is never
the answer. -/
structure ResolvesAsDeclared (registry : ProviderRegistry)
    (tarjanScc : ResolverGraph → Traversal) : Prop where
  accepts : (∃ answer, registry.resolve tarjanScc = .ok answer) ↔ registry.Acceptable
  ordered : ∀ sequence report, registry.resolve tarjanScc = .ok (sequence, report) →
    sequence.positions.Perm (List.range registry.len) ∧
    ∀ front dependent rest, sequence.positions = front ++ dependent :: rest →
      ∀ dependency, registry.DependsOn dependent dependency → dependency ∈ front
  cycle : ∀ names, registry.resolve tarjanScc = .error (.dependencyCycle names) →
    ∃ members : List Nat, names = members.map registry.nameAt ∧ members.Nodup ∧
      ∃ first ∈ members, Relation.TransGen registry.DependsOn first first ∧
        ∀ second, second ∈ members ↔
          Foundation.StronglyConnected registry.DependsOn first second
  budget : ∀ axis observed allowed,
    registry.resolve tarjanScc ≠ .error (.internal axis observed allowed)

/-- Past the declarations the answer is decided by the reported cycles. -/
private theorem resolve_declared {tarjanScc : ResolverGraph → Traversal} {size : DeclaredSize}
    {graph : ResolverGraph} (declared : registry.declaredGraph = .ok (size, graph))
    (pass : TarjanPass graph (tarjanScc graph)) :
    registry.resolve tarjanScc = match (graph.resolve tarjanScc).cycles.head? with
      | some cycle => .error (.dependencyCycle (cycle.members.map registry.nameAt))
      | none => .ok (
          ⟨(graph.resolve tarjanScc).initialisationOrder.map
            fun position => (position, registry.idAt position)⟩,
          ⟨size.providers, size.edges, (graph.resolve tarjanScc).counters.providerExaminations,
            (graph.resolve tarjanScc).counters.edgeExaminations,
            (graph.resolve tarjanScc).counters.totalWorkUnits⟩) := by
  have holds := declaredGraph_ok declared
  have few := holds.count.trans_le holds.ceilings.providers
  have budget := pass.checkBudget rfl holds.edges few holds.ceilings.edges
  rw [holds.count] at budget
  simp only [resolve, bind, Except.bind, declared, holds.size, budget]
  split <;> rfl

/-- **An order the resolver returns** holds every position once, each after all
it depends on. -/
theorem resolve_ordered {tarjanScc : ResolverGraph → Traversal}
    (passes : ∀ size graph, registry.declaredGraph = .ok (size, graph) →
      TarjanPass graph (tarjanScc graph))
    {sequence : InitialisationOrder} {report : ResolutionReport}
    (resolved : registry.resolve tarjanScc = .ok (sequence, report)) :
    sequence.positions.Perm (List.range registry.len) ∧
      ∀ front dependent rest, sequence.positions = front ++ dependent :: rest →
        ∀ dependency, registry.DependsOn dependent dependency → dependency ∈ front := by
  cases declared : registry.declaredGraph with
  | error error => simp [resolve, bind, Except.bind, declared] at resolved
  | ok pair =>
      have pass := passes pair.1 pair.2 declared
      have holds := declaredGraph_ok declared
      rw [resolve_declared declared pass] at resolved
      split at resolved
      · cases resolved
      next none =>
      cases resolved
      have acyclic := (pass.cycles_nil rfl).mp (List.head?_eq_none_iff.mp none)
      obtain ⟨permutation, before⟩ := pass.initialisationOrder_ordered rfl acyclic
      rw [ResolverGraph.identifiers, holds.count] at permutation
      rw [holds.edge] at before
      simp only [InitialisationOrder.positions, List.map_map, Function.comp_def, List.map_id']
      exact ⟨permutation, before⟩

/-- A refusal of the declarations is neither a cycle nor a budget, and the
registry is not acceptable or offers a capability twice by one provider. -/
private theorem ResolvesAsDeclared.refused {tarjanScc : ResolverGraph → Traversal}
    {error : KernelError} (declared : registry.declaredGraph = .error error)
    (once : registry.Acceptable → ∀ provider ∈ registry.providers, provider.provides.Nodup) :
    registry.ResolvesAsDeclared tarjanScc := by
  have answer : registry.resolve tarjanScc = .error error := by
    simp only [resolve, bind, Except.bind, declared]
  obtain ⟨noCycle, noBudget⟩ := declaredGraph_error declared
  constructor
  · rw [answer]
    constructor
    · rintro ⟨_, accepted⟩
      cases accepted
    · intro acceptable
      obtain ⟨size, graph, isOk⟩ := declaredGraph_isOk acceptable.ceilings acceptable.one
        (once acceptable) acceptable.offered
      rw [isOk] at declared
      cases declared
  · intro _ _ accepted
    rw [answer] at accepted
    cases accepted
  · intro names cyclic
    rw [answer] at cyclic
    exact (noCycle names (Except.error.inj cyclic)).elim
  · intro axis observed allowed exhausted
    rw [answer] at exhausted
    exact noBudget axis observed allowed (Except.error.inj exhausted)

/-- A graph without cycles is answered with its order. -/
private theorem ResolvesAsDeclared.sequenced {tarjanScc : ResolverGraph → Traversal}
    (passes : ∀ size graph, registry.declaredGraph = .ok (size, graph) →
      TarjanPass graph (tarjanScc graph))
    {size : DeclaredSize} {graph : ResolverGraph}
    (declared : registry.declaredGraph = .ok (size, graph))
    (none : (graph.resolve tarjanScc).cycles = []) : registry.ResolvesAsDeclared tarjanScc := by
  have pass := passes size graph declared
  have holds := declaredGraph_ok declared
  have answer := resolve_declared declared pass
  have acyclic := (pass.cycles_nil rfl).mp none
  rw [none, List.head?_nil] at answer
  rw [holds.edge] at acyclic
  constructor
  · rw [answer]
    exact ⟨fun _ => ⟨holds.ceilings, holds.one, holds.offered, acyclic⟩, fun _ => ⟨_, rfl⟩⟩
  · intro sequence report accepted
    exact resolve_ordered passes accepted
  · intro names cyclic
    rw [answer] at cyclic
    cases cyclic
  · intro axis observed allowed exhausted
    rw [answer] at exhausted
    cases exhausted

/-- A graph with a cycle is answered with one whole component. -/
private theorem ResolvesAsDeclared.cyclic {tarjanScc : ResolverGraph → Traversal}
    {size : DeclaredSize} {graph : ResolverGraph}
    (declared : registry.declaredGraph = .ok (size, graph))
    (pass : TarjanPass graph (tarjanScc graph)) {cycle : Component} {rest : List Component}
    (reported : (graph.resolve tarjanScc).cycles = cycle :: rest) :
    registry.ResolvesAsDeclared tarjanScc := by
  have holds := declaredGraph_ok declared
  have answer := resolve_declared declared pass
  have cycles := @TarjanPass.cycles_nil _ _ pass tarjanScc rfl
  rw [reported, List.head?_cons] at answer
  have whole := pass.cycle_whole rfl (reported ▸ List.mem_cons_self)
  rw [holds.edge] at whole cycles
  constructor
  · rw [answer]
    constructor
    · rintro ⟨_, accepted⟩
      cases accepted
    · intro acceptable
      have none := cycles.mpr acceptable.acyclic
      rw [reported] at none
      cases none
  · intro _ _ accepted
    rw [answer] at accepted
    cases accepted
  · intro names refused
    rw [answer] at refused
    cases refused
    exact ⟨cycle.members, rfl, whole⟩
  · intro axis observed allowed exhausted
    rw [answer] at exhausted
    cases exhausted

end ProviderRegistry

open ProviderRegistry in
/-- **The resolver answers as declared** for a registry exactly when, if the
registry is acceptable at all, no provider lists one of its own capabilities
twice. -/
theorem resolves_as_declared_iff (registry : ProviderRegistry)
    (tarjanScc : ResolverGraph → Traversal)
    (passes : ∀ size graph, registry.declaredGraph = .ok (size, graph) →
      TarjanPass graph (tarjanScc graph)) :
    registry.ResolvesAsDeclared tarjanScc ↔
      (registry.Acceptable → ∀ provider ∈ registry.providers, provider.provides.Nodup) := by
  constructor
  · intro answers acceptable
    obtain ⟨answer, accepted⟩ := answers.accepts.mpr acceptable
    cases declared : registry.declaredGraph with
    | ok pair => exact (declaredGraph_ok declared).once
    | error error => simp [ProviderRegistry.resolve, bind, Except.bind, declared] at accepted
  · intro once
    cases declared : registry.declaredGraph with
    | error error => exact .refused declared once
    | ok pair =>
        have pass := passes pair.1 pair.2 declared
        cases reported : (pair.2.resolve tarjanScc).cycles with
        | nil => exact .sequenced passes declared reported
        | cons cycle rest => exact .cyclic declared pass reported

/-- Two providers, the first of which depends on the second. -/
def linkedRegistry : ProviderRegistry where
  providers := [⟨⟨"api"⟩, [], [⟨"store"⟩]⟩, ⟨⟨"store"⟩, [⟨"store"⟩], []⟩]

/-- The pass over the graph of the linked registry. -/
def linkedTraversal : Traversal where
  components := [[1], [0]]
  queries := [.identifier 0, .neighbors 0, .neighbor 1, .neighbors 1, .identifier 1]

/-- The linked pass is one the resolver may rely on. -/
theorem linked_pass (size : DeclaredSize) (graph : ResolverGraph)
    (declared : linkedRegistry.declaredGraph = .ok (size, graph)) :
    TarjanPass graph linkedTraversal := by
  have found : linkedRegistry.declaredGraph =
      .ok (⟨2, 1⟩, ⟨[0, 1, 1], [1], by decide⟩) := rfl
  rw [found] at declared
  cases declared
  refine ⟨⟨by decide, by decide, ?_, ?_, ?_⟩, by decide, by decide, by decide⟩
  · intro component listed first member second other
    simp only [linkedTraversal, List.mem_cons, List.not_mem_nil, or_false] at listed
    rcases listed with rfl | rfl <;>
      rw [List.mem_singleton.mp member, List.mem_singleton.mp other] <;>
      exact ⟨.refl, .refl⟩
  · have sinks : ∀ second, Relation.ReflTransGen
        (ResolverGraph.Edge ⟨[0, 1, 1], [1], by decide⟩) 1 second → second = 1 := by
      intro second path
      rcases Relation.ReflTransGen.cases_head path with same | ⟨next, step, _⟩
      · exact same.symm
      · cases step.2
    intro component listed first member second connected
    simp only [linkedTraversal, List.mem_cons, List.not_mem_nil, or_false] at listed
    rcases listed with rfl | rfl
    · rw [List.mem_singleton.mp member] at connected
      exact List.mem_singleton.mpr (sinks second connected.1)
    · rw [List.mem_singleton.mp member] at connected
      rcases Relation.ReflTransGen.cases_head connected.1 with same | ⟨next, step, onward⟩
      · exact List.mem_singleton.mpr same.symm
      · have target : next = 1 := List.mem_singleton.mp step.2
        rw [sinks second (target ▸ onward)] at connected
        cases sinks 0 connected.2
  · simp [linkedTraversal, ResolverGraph.Edge, ResolverGraph.neighbors, dependencySlice]

/-- The resolver orders the linked registry. -/
theorem linked_resolves : linkedRegistry.ResolvesAsDeclared fun _ => linkedTraversal :=
  (resolves_as_declared_iff linkedRegistry (fun _ => linkedTraversal) linked_pass).mpr
    fun _ => by decide

/-- One provider that lists its capability twice. -/
def repeatingRegistry : ProviderRegistry where
  providers := [⟨⟨"cache"⟩, [⟨"store"⟩, ⟨"store"⟩], []⟩]

/-- The repeating registry meets every condition and is refused, naming its one
provider twice. -/
theorem repeating_refused :
    ¬ ∀ (registry : ProviderRegistry) (tarjanScc : ResolverGraph → Traversal),
      (∀ size graph, registry.declaredGraph = .ok (size, graph) →
        TarjanPass graph (tarjanScc graph)) → registry.ResolvesAsDeclared tarjanScc := by
  intro claim
  have refused : repeatingRegistry.declaredGraph =
      .error (.capabilityDuplicate "store" "cache" "cache") := rfl
  have answers := claim repeatingRegistry (fun _ => ⟨[], []⟩) (by simp [refused])
  have acceptable : repeatingRegistry.Acceptable := by
    refine ⟨⟨by decide, by decide⟩, ?_, by simp [ProviderRegistry.DependenciesOffered,
      repeatingRegistry], ?_⟩
    · intro first second left right capability atFirst atSecond _ _
      have low := ProviderRegistry.get_some_lt atFirst
      have high := ProviderRegistry.get_some_lt atSecond
      simp only [ProviderRegistry.len, repeatingRegistry, List.length_singleton] at low high
      omega
    · intro node cycle
      obtain ⟨_, ⟨left, right, capability, found, _, declares, _⟩, _⟩ :=
        Relation.TransGen.head'_iff.mp cycle
      have only := ProviderRegistry.mem_providers.mpr ⟨node, found⟩
      rw [repeatingRegistry, List.mem_singleton] at only
      subst only
      cases declares
  obtain ⟨answer, accepted⟩ := answers.accepts.mpr acceptable
  simp [ProviderRegistry.resolve, bind, Except.bind, refused] at accepted

end Renvor
