import Renvor.Kernel.Arithmetic
import Renvor.Kernel.Error

/-! # Declared providers and the registration set

A provider names the capabilities it offers and the capabilities it depends on.
The ceilings are checked on these declared lists, before a graph exists.
-/

namespace Renvor

/-- The maximum number of providers one graph may declare. -/
def maxProviders : Nat := 1024

/-- The maximum number of dependency edges one graph may carry. -/
def maxEdges : Nat := 8192

/-- A provider's name, verbatim as diagnostics print it. -/
structure ProviderId where
  name : String

/-- A capability a provider offers and others may depend on. -/
structure CapabilityId where
  name : String
  deriving DecidableEq

/-- What a provider declares. -/
structure Provider where
  id : ProviderId
  provides : List CapabilityId
  dependencies : List CapabilityId

/-- The size of a provider graph in the two units the ceilings are stated in. -/
structure DeclaredSize where
  providers : Nat
  edges : Nat

/-- The resolved initialisation sequence: registration positions with names. -/
structure InitialisationOrder where
  order : List (Nat × ProviderId)

/-- The registration positions, in initialisation order. -/
def InitialisationOrder.positions (sequence : InitialisationOrder) : List Nat :=
  sequence.order.map Prod.fst

/-- What one resolution examined. -/
structure ResolutionReport where
  providerCount : Nat
  edgeCount : Nat
  providersExamined : Nat
  edgesExamined : Nat
  workUnits : Nat

/-- The providers, in registration order. -/
structure ProviderRegistry where
  providers : List Provider

namespace ProviderRegistry

variable (registry : ProviderRegistry)

/-- The number of registered providers. -/
def len : Nat := registry.providers.length

/-- The provider at a registration position. -/
def get (position : Nat) : Option Provider := registry.providers[position]?

/-- How many dependency edges the providers declare in total. -/
def edgeTotal : Nat := (registry.providers.map fun provider => provider.dependencies.length).sum

/-- Checks the declared counts against the two ceilings. -/
def declaredSize : Except KernelError DeclaredSize :=
  let providers := clampU32 registry.providers.length
  if providers > maxProviders then
    .error (.limitExceeded "provider" maxProviders providers)
  else
    let edges := registry.providers.foldl
      (fun total provider => saturatingAdd total (clampU32 provider.dependencies.length)) 0
    if edges > maxEdges then .error (.limitExceeded "dependency edge" maxEdges edges)
    else .ok ⟨providers, edges⟩

/-- The declared counts are within their ceilings. -/
structure WithinCeilings : Prop where
  providers : registry.len ≤ maxProviders
  edges : registry.edgeTotal ≤ maxEdges

/-- No capability is offered by two providers. -/
def OfferedByOne : Prop :=
  ∀ first second left right capability, registry.get first = some left →
    registry.get second = some right → capability ∈ left.provides →
    capability ∈ right.provides → first = second

/-- Every declared dependency is offered by some provider. -/
def DependenciesOffered : Prop :=
  ∀ dependent ∈ registry.providers, ∀ capability ∈ dependent.dependencies,
    ∃ provider ∈ registry.providers, capability ∈ provider.provides

/-- One registration position depends on another: the provider there offers a
capability this one declares as a dependency. -/
def DependsOn (dependent dependency : Nat) : Prop :=
  ∃ left right capability, registry.get dependent = some left ∧
    registry.get dependency = some right ∧ capability ∈ left.dependencies ∧
    capability ∈ right.provides

variable {registry}

/-- The running total is the clamped sum of what has been added. -/
private theorem edges_fold (providers : List Provider) (total : Nat) :
    providers.foldl
        (fun total provider => saturatingAdd total (clampU32 provider.dependencies.length))
        (clampU32 total) =
      clampU32 (total + (providers.map fun provider => provider.dependencies.length).sum) := by
  induction providers generalizing total with
  | nil => simp
  | cons provider rest ih =>
      rw [List.foldl_cons, saturatingAdd_clamp, ih, List.map_cons, List.sum_cons, Nat.add_assoc]

/-- **The size check passes exactly within the ceilings**, and then answers the
declared counts. -/
theorem declaredSize_ok (size : DeclaredSize) :
    registry.declaredSize = .ok size ↔
      registry.WithinCeilings ∧ size = ⟨registry.len, registry.edgeTotal⟩ := by
  have fold := edges_fold registry.providers 0
  have zero : clampU32 0 = 0 := rfl
  rw [zero, Nat.zero_add] at fold
  have few : maxProviders < u32Max := by decide
  have small : maxEdges < u32Max := by decide
  simp only [declaredSize, fold, gt_iff_lt, lt_clampU32 few, lt_clampU32 small]
  split
  · next many =>
      constructor
      · intro refused
        cases refused
      · rintro ⟨within, _⟩
        exact absurd within.providers (Nat.not_le.mpr many)
  · next fits =>
      split
      · next many =>
          constructor
          · intro refused
            cases refused
          · rintro ⟨within, _⟩
            exact absurd within.edges (Nat.not_le.mpr many)
      · next room =>
          have within : registry.WithinCeilings := ⟨Nat.not_lt.mp fits, Nat.not_lt.mp room⟩
          have providers : clampU32 registry.providers.length = registry.len :=
            Nat.min_eq_left (within.providers.trans few.le)
          have edges : clampU32 registry.edgeTotal = registry.edgeTotal :=
            Nat.min_eq_left (within.edges.trans small.le)
          rw [edgeTotal] at edges
          simp only [providers, edges, Except.ok.injEq, within, true_and, edgeTotal]
          exact eq_comm

/-- A refused size is reported as a breached ceiling. -/
theorem declaredSize_error {error : KernelError} (refused : registry.declaredSize = .error error) :
    ∃ limit ceiling observed, error = .limitExceeded limit ceiling observed := by
  simp only [declaredSize] at refused
  split at refused
  · exact ⟨_, _, _, (Except.error.inj refused).symm⟩
  · split at refused
    · exact ⟨_, _, _, (Except.error.inj refused).symm⟩
    · cases refused

theorem get_some_lt {position : Nat} {provider : Provider}
    (found : registry.get position = some provider) : position < registry.len :=
  (List.getElem?_eq_some_iff.mp found).1

theorem mem_providers {provider : Provider} :
    provider ∈ registry.providers ↔ ∃ position, registry.get position = some provider :=
  List.mem_iff_getElem?

end ProviderRegistry

end Renvor
