import Mathlib.Data.List.Perm.Basic
import Mathlib.Logic.Relation

/-! # Components of a directed graph in postorder

A postorder list of the strongly connected components of a directed graph
decides whether the graph has a cycle
(`Foundation.PostorderComponents.acyclic_iff`), and flattened it is a
topological order when it has none
(`Foundation.PostorderComponents.flatten_ordered`).
-/

namespace Foundation

open Relation

universe u

variable {Node : Type u}

/-- Two nodes each of which is reached from the other. -/
def StronglyConnected (edge : Node → Node → Prop) (first second : Node) : Prop :=
  ReflTransGen edge first second ∧ ReflTransGen edge second first

/-- No node is reached from itself by at least one edge. -/
def Acyclic (edge : Node → Node → Prop) : Prop :=
  ∀ node, ¬ TransGen edge node node

/-- Every strongly connected component of a graph on the given nodes, each node
in exactly one of them, with no edge from a component to a later one. -/
structure PostorderComponents (edge : Node → Node → Prop) (nodes : List Node)
    (components : List (List Node)) : Prop where
  partition : components.flatten.Perm nodes
  nonempty : ∀ component ∈ components, component ≠ []
  connected : ∀ component ∈ components, ∀ first ∈ component, ∀ second ∈ component,
    StronglyConnected edge first second
  complete : ∀ component ∈ components, ∀ first ∈ component, ∀ second,
    StronglyConnected edge first second → second ∈ component
  postorder : components.Pairwise fun earlier later =>
    ∀ first ∈ earlier, ∀ second ∈ later, ¬ edge first second

namespace StronglyConnected

variable {edge : Node → Node → Prop} {first second : Node}

/-- Two different nodes of one component lie on a cycle. -/
theorem cycle (connected : StronglyConnected edge first second) (different : first ≠ second) :
    TransGen edge first first := by
  rcases reflTransGen_iff_eq_or_transGen.mp connected.1 with same | onward
  · exact (different same.symm).elim
  · exact onward.trans_left connected.2

/-- In a graph without cycles a node is connected only to itself. -/
theorem eq_of_acyclic (connected : StronglyConnected edge first second)
    (acyclic : Acyclic edge) : first = second := by
  by_contra different
  exact acyclic first (connected.cycle different)

end StronglyConnected

namespace PostorderComponents

variable {edge : Node → Node → Prop} {nodes : List Node} {components : List (List Node)}

/-- Every node is in some component. -/
theorem covers (postorder : PostorderComponents edge nodes components) {node : Node}
    (member : node ∈ nodes) : ∃ component ∈ components, node ∈ component :=
  List.mem_flatten.mp (postorder.partition.mem_iff.mpr member)

/-- A cycle through a node of a component stays in the component: the component
has a second node, or the node has an edge to itself. -/
theorem cyclic_of_cycle (postorder : PostorderComponents edge nodes components)
    {component : List Node} (listed : component ∈ components) {node : Node}
    (member : node ∈ component) (cycle : TransGen edge node node) :
    (∃ other ∈ component, other ≠ node) ∨ edge node node := by
  obtain ⟨next, step, back⟩ := TransGen.head'_iff.mp cycle
  by_cases same : next = node
  · subst same
    exact Or.inr step
  · refine Or.inl ⟨next, ?_, same⟩
    exact postorder.complete component listed node member next ⟨.single step, back⟩

/-- **The components decide whether there is a cycle.** A graph on nodes that
contain all its edges has none exactly when every component is a single node
without an edge to itself. -/
theorem acyclic_iff (postorder : PostorderComponents edge nodes components)
    (inside : ∀ first second, edge first second → first ∈ nodes) (nodup : nodes.Nodup) :
    Acyclic edge ↔ ∀ component ∈ components, ∃ node, component = [node] ∧ ¬ edge node node := by
  have distinct : ∀ component ∈ components, component.Nodup := by
    intro component listed
    have flat := postorder.partition.nodup_iff.mpr nodup
    exact flat.sublist (List.sublist_flatten_of_mem listed)
  constructor
  · intro acyclic component listed
    obtain ⟨node, rest, rfl⟩ := List.exists_cons_of_ne_nil (postorder.nonempty component listed)
    refine ⟨node, ?_, fun loop => acyclic node (.single loop)⟩
    cases rest with
    | nil => rfl
    | cons other rest =>
        have connected := postorder.connected _ listed node (by simp) other (by simp)
        have same := connected.eq_of_acyclic acyclic
        have apart := distinct _ listed
        simp [same] at apart
  · intro single node cycle
    obtain ⟨next, step, _⟩ := TransGen.head'_iff.mp cycle
    obtain ⟨component, listed, member⟩ := postorder.covers (inside node next step)
    obtain ⟨only, rfl, noLoop⟩ := single component listed
    cases List.mem_singleton.mp member
    rcases postorder.cyclic_of_cycle listed member cycle with ⟨other, second, different⟩ | loop
    · exact different (List.mem_singleton.mp second)
    · exact noLoop loop

/-- **Without cycles the flattened components are a topological order**: no
node has an edge to one at or after its own place. -/
theorem flatten_ordered (postorder : PostorderComponents edge nodes components)
    (acyclic : Acyclic edge) :
    components.flatten.Pairwise fun earlier later => ¬ edge earlier later := by
  rw [List.pairwise_flatten]
  refine ⟨?_, postorder.postorder⟩
  intro component listed
  refine List.Pairwise.imp_of_mem (R := fun _ _ => True) ?_ (List.pairwise_of_forall (by simp))
  intro earlier later before after _ step
  have connected := postorder.connected component listed earlier before later after
  have same := connected.eq_of_acyclic acyclic
  exact acyclic earlier (.single (same ▸ step))

end PostorderComponents

/-- In a topological order the target of an edge stands before its source. -/
theorem target_before {edge : Node → Node → Prop} {order front rest : List Node} {source : Node}
    (ordered : order.Pairwise fun earlier later => ¬ edge earlier later)
    (acyclic : Acyclic edge) (split : order = front ++ source :: rest) {target : Node}
    (listed : target ∈ order) (step : edge source target) : target ∈ front := by
  rw [split] at listed ordered
  rcases List.mem_append.mp listed with before | after
  · exact before
  · rw [List.pairwise_append, List.pairwise_cons] at ordered
    rcases List.mem_cons.mp after with same | later
    · exact (acyclic source (.single (same ▸ step))).elim
    · exact (ordered.2.1.1 target later step).elim

end Foundation
