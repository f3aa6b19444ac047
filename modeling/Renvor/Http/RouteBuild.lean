import Mathlib.Data.List.Induction
import Mathlib.Data.String.Basic
import Renvor.Foundation.OrderedMap
import Renvor.Http.RouteRegistry

/-! # The router of a registry

A pattern is checked alone when it is registered, and meets the others when the router is
built. Two patterns that overlap are both registered, and building panics
(`Renvor.registers_iff`).
-/

namespace Renvor

open Foundation

inductive CorsPolicyError
  | wildcardWithCredentials

structure CorsPolicy where
  wildcard : Bool
  credentials : Bool

def CorsPolicy.validate (policy : CorsPolicy) : Except CorsPolicyError Unit :=
  if policy.wildcard && policy.credentials then .error .wildcardWithCredentials else .ok ()

variable {Request Answer : Type}

/-- The endpoints of one path, by method. -/
abbrev MethodRouter (Request Answer : Type) := List (Method × (Request → Answer))

/-- Adds an endpoint, or panics where the method has one. -/
def MethodRouter.on (router : MethodRouter Request Answer) (method : Method)
    (endpoint : Request → Answer) : Option (MethodRouter Request Answer) :=
  if router.any fun entry => entry.1 = method then none else some (router ++ [(method, endpoint)])

/-- The endpoints of a router, by pattern. -/
structure Router (Request Answer : Type) where
  routes : List (String × MethodRouter Request Answer)

def Router.new : Router Request Answer := ⟨[]⟩

def Router.patterns (router : Router Request Answer) : List String := router.routes.map Prod.fst

def Router.route (matcher : PatternMatcher) (router : Router Request Answer) (path : String)
    (endpoints : MethodRouter Request Answer) : Option (Router Request Answer) :=
  (matcher.add router.patterns path).map fun _ => ⟨router.routes ++ [(path, endpoints)]⟩

namespace RouteRegistry

/-- The routes by path, each path's in the order of registration. -/
def byPath (registry : RouteRegistry Request Answer) :
    OrderedMap String (List (Route Request Answer)) :=
  registry.routes.foldl (fun grouped route =>
    grouped.insert route.path ((grouped.get? route.path).getD [] ++ [route])) .empty

end RouteRegistry

/-- The endpoints of the routes of one path. -/
def methodRouter (routes : List (Route Request Answer)) : Option (MethodRouter Request Answer) :=
  routes.foldlM (fun endpoints route => MethodRouter.on endpoints route.method route.dispatch) []

/-- The inner router. -/
def addPaths (matcher : PatternMatcher) (grouped : List (String × List (Route Request Answer)))
    (router : Router Request Answer) : Option (Router Request Answer) :=
  grouped.foldlM (fun router entry => do
    let endpoints ← methodRouter entry.2
    router.route matcher entry.1 endpoints) router

/-- Builds a router. The option is empty where this panics. -/
def router (matcher : PatternMatcher) (registry : RouteRegistry Request Answer)
    (policy : CorsPolicy) : Option (Except CorsPolicyError (Router Request Answer)) :=
  match policy.validate with
  | .error error => some (.error error)
  | .ok () => (addPaths matcher registry.byPath.entries Router.new).map .ok

namespace RouteRegistry

variable {matcher : PatternMatcher} {registry : RouteRegistry Request Answer}

/-- The routes of a path. -/
def ofPath (registry : RouteRegistry Request Answer) (path : String) : List (Route Request Answer) :=
  registry.routes.filter fun route => route.path = path

/-- A path has the routes that were registered at it, and is listed when there are any. -/
theorem byPath_get? (registry : RouteRegistry Request Answer) (path : String) :
    registry.byPath.get? path = if registry.ofPath path = [] then none else some (registry.ofPath path) := by
  obtain ⟨routes, seen⟩ := registry
  unfold byPath ofPath
  dsimp only
  induction routes using List.reverseRecOn with
  | nil => rfl
  | append_singleton routes route ih =>
      rw [List.foldl_append, List.foldl_cons, List.foldl_nil, List.filter_append]
      by_cases same : route.path = path
      · subst same
        have own : [route].filter (fun other => other.path = route.path) = [route] := by simp
        rw [OrderedMap.get?_insert_self, ih, own, if_neg (List.append_ne_nil_of_right_ne_nil _
          (List.cons_ne_nil route []))]
        split
        next none => rw [none]; rfl
        next => rfl
      · have other : [route].filter (fun other => other.path = path) = [] := by simpa using same
        rw [OrderedMap.get?_insert_of_ne (Ne.symm same), ih, other, List.append_nil]

theorem mem_patterns {path : String} : path ∈ registry.byPath.entries.map Prod.fst ↔
    ∃ route ∈ registry.routes, route.path = path := by
  have filled : registry.ofPath path ≠ [] ↔ ∃ route ∈ registry.routes, route.path = path := by
    unfold ofPath
    rw [Ne, List.filter_eq_nil_iff]
    simp
  rw [← filled]
  constructor
  · intro member
    obtain ⟨entry, listed, rfl⟩ := List.mem_map.mp member
    have held := OrderedMap.get?_some.mpr listed
    rw [byPath_get?] at held
    split at held
    next => cases held
    next filled => exact filled
  · intro filled
    have held := byPath_get? registry path
    rw [if_neg filled] at held
    exact List.mem_map.mpr ⟨_, OrderedMap.get?_some.mp held, rfl⟩

theorem entry_routes {entry : String × List (Route Request Answer)}
    (member : entry ∈ registry.byPath.entries) : entry.2 = registry.ofPath entry.1 := by
  have held := byPath_get? registry entry.1
  rw [OrderedMap.get?_some.mpr member] at held
  split at held
  next => cases held
  next => exact Option.some.inj held

end RouteRegistry

/-- Methods that differ all find their place. -/
theorem methodRouter_eq {routes : List (Route Request Answer)}
    (distinct : (routes.map Route.method).Nodup) :
    methodRouter routes = some (routes.map fun route => (route.method, route.dispatch)) := by
  unfold methodRouter
  induction routes using List.reverseRecOn with
  | nil => rfl
  | append_singleton routes route ih =>
      rw [List.map_append, List.map_singleton, (List.perm_append_singleton _ _).nodup_iff,
        List.nodup_cons] at distinct
      obtain ⟨absent, distinct⟩ := distinct
      have free : MethodRouter.on (routes.map fun route => (route.method, route.dispatch))
          route.method route.dispatch =
            some ((routes ++ [route]).map fun route => (route.method, route.dispatch)) := by
        unfold MethodRouter.on
        rw [List.map_append, if_neg]
        · rfl
        · intro taken
          obtain ⟨entry, member, same⟩ := List.any_eq_true.mp taken
          obtain ⟨other, listed, rfl⟩ := List.mem_map.mp member
          exact absent (List.mem_map.mpr ⟨other, listed, of_decide_eq_true same⟩)
      rw [List.foldlM_append, ih distinct]
      change (MethodRouter.on _ route.method route.dispatch).bind some = _
      rw [free]
      rfl

/-- The routes of a path differ in their methods. -/
theorem RouteRegistry.methods_nodup {registry : RouteRegistry Request Answer}
    (distinct : (registry.routes.map Route.key).Nodup) (path : String) :
    ((registry.ofPath path).map Route.method).Nodup := by
  have keys : ((registry.ofPath path).map Route.key).Nodup :=
    distinct.sublist (List.filter_sublist.map _)
  unfold List.Nodup at keys ⊢
  rw [List.pairwise_map] at keys ⊢
  refine keys.imp_of_mem fun member another differ same => differ (Prod.ext same ?_)
  have here := of_decide_eq_true (List.mem_filter.mp member).2
  have there := of_decide_eq_true (List.mem_filter.mp another).2
  exact here.trans there.symm

/-- Paths are added where each is well formed and meets none before it. -/
theorem addPaths_spec {matcher : PatternMatcher}
    {grouped : List (String × List (Route Request Answer))} {router : Router Request Answer}
    (built : ∀ entry ∈ grouped, matcher.malformed entry.1 = false ∧
      (entry.2.map Route.method).Nodup) :
    (addPaths matcher grouped router ≠ none ↔
      (∀ entry ∈ grouped, ∀ other ∈ router.patterns, matcher.overlaps entry.1 other = false) ∧
        (grouped.map Prod.fst).Pairwise fun earlier later =>
          matcher.overlaps later earlier = false) ∧
    ∀ after, addPaths matcher grouped router = some after → after.routes = router.routes ++
      grouped.map fun entry => (entry.1, entry.2.map fun route => (route.method, route.dispatch)) := by
  unfold addPaths
  induction grouped generalizing router with
  | nil =>
      refine ⟨iff_of_true nofun ⟨nofun, .nil⟩, ?_⟩
      rintro after ⟨⟩
      exact (List.append_nil _).symm
  | cons entry rest ih =>
      obtain ⟨wellFormed, distinct⟩ := built entry List.mem_cons_self
      have others := fun other member => built other (List.mem_cons_of_mem entry member)
      let added : Router Request Answer := ⟨router.routes ++
        [(entry.1, entry.2.map fun route => (route.method, route.dispatch))]⟩
      obtain ⟨passes, leaves⟩ := @ih added others
      have patterns : added.patterns = router.patterns ++ [entry.1] := List.map_append ..
      rw [List.foldlM_cons, methodRouter_eq distinct]
      dsimp only [bind, Option.bind]
      unfold Router.route PatternMatcher.add
      rw [wellFormed, Bool.false_or, List.map_cons, List.pairwise_cons]
      by_cases meets : router.patterns.any (fun other => matcher.overlaps entry.1 other) = true
      · rw [if_pos meets]
        obtain ⟨other, member, overlaps⟩ := List.any_eq_true.mp meets
        refine ⟨iff_of_false (fun some => some rfl) fun clear => ?_, nofun⟩
        cases (clear.1 entry List.mem_cons_self other member).symm.trans overlaps
      · rw [if_neg meets]
        have here : ∀ other ∈ router.patterns, matcher.overlaps entry.1 other = false := by
          intro other member
          by_contra overlaps
          exact meets (List.any_eq_true.mpr ⟨other, member, Bool.not_eq_false _ ▸ overlaps⟩)
        constructor
        · refine passes.trans ?_
          rw [patterns]
          constructor
          · rintro ⟨clear, pairwise⟩
            refine ⟨?_, ?_, pairwise⟩
            · intro other member earlier listed
              obtain rfl | member := List.mem_cons.mp member
              · exact here earlier listed
              · exact clear other member earlier (List.mem_append_left _ listed)
            · intro path member
              obtain ⟨other, listed, rfl⟩ := List.mem_map.mp member
              exact clear other listed entry.1 (List.mem_append_right _ List.mem_cons_self)
          · rintro ⟨clear, first, pairwise⟩
            refine ⟨?_, pairwise⟩
            intro other member earlier listed
            obtain listed | last := List.mem_append.mp listed
            · exact clear other (List.mem_cons_of_mem entry member) earlier listed
            · rw [List.mem_singleton.mp last]
              exact first other.1 (List.mem_map_of_mem member)
        · intro after builds
          rw [leaves after builds, List.append_assoc]
          rfl

/-- **A router is built of a sound registry exactly when no two of its patterns overlap, and
serves its routes.** -/
theorem router_spec {matcher : PatternMatcher} {registry : RouteRegistry Request Answer}
    (sound : registry.Sound matcher) :
    ((∀ policy, router matcher registry policy ≠ none) ↔
      ∀ first ∈ registry.routes, ∀ second ∈ registry.routes, first.path < second.path →
        matcher.overlaps second.path first.path = false) ∧
    ∀ policy built, router matcher registry policy = some (.ok built) →
      ∀ route ∈ registry.routes, ∃ endpoints, (route.path, endpoints) ∈ built.routes ∧
        (route.method, route.dispatch) ∈ endpoints := by
  have fine : ∀ entry ∈ registry.byPath.entries, matcher.malformed entry.1 = false ∧
      (entry.2.map Route.method).Nodup := by
    intro entry member
    rw [RouteRegistry.entry_routes member]
    refine ⟨?_, registry.methods_nodup sound.distinct entry.1⟩
    obtain ⟨route, listed, same⟩ := RouteRegistry.mem_patterns.mp (List.mem_map_of_mem member)
    rw [← same]
    exact (sound.served route listed).2
  obtain ⟨adds, leaves⟩ := @addPaths_spec _ _ matcher registry.byPath.entries Router.new fine
  have patterns : (registry.byPath.entries.map Prod.fst).Pairwise
      (fun earlier later => matcher.overlaps later earlier = false) ↔
      ∀ first ∈ registry.routes, ∀ second ∈ registry.routes, first.path < second.path →
        matcher.overlaps second.path first.path = false := by
    rw [OrderedMap.pairwise_keys]
    constructor
    · intro clear first member second another
      exact clear _ (RouteRegistry.mem_patterns.mpr ⟨first, member, rfl⟩) _
        (RouteRegistry.mem_patterns.mpr ⟨second, another, rfl⟩)
    · intro clear path member other another
      obtain ⟨first, listed, rfl⟩ := RouteRegistry.mem_patterns.mp member
      obtain ⟨second, also, rfl⟩ := RouteRegistry.mem_patterns.mp another
      exact clear first listed second also
  have panics : (∀ policy, router matcher registry policy ≠ none) ↔
      addPaths matcher registry.byPath.entries Router.new ≠ none := by
    constructor
    · intro never none
      refine never ⟨false, false⟩ ?_
      dsimp only [router, CorsPolicy.validate]
      rw [none]
      rfl
    · intro some policy none
      unfold router at none
      split at none
      next => cases none
      next => exact some (Option.map_eq_none_iff.mp none)
  constructor
  · rw [panics, adds, ← patterns]
    exact and_iff_right nofun
  · intro policy built builds route member
    unfold router at builds
    split at builds
    next => cases builds
    next =>
      obtain ⟨whole, adds, same⟩ := Option.map_eq_some_iff.mp builds
      cases same
      have listed := RouteRegistry.mem_patterns.mpr ⟨route, member, rfl⟩
      obtain ⟨entry, inside, path⟩ := List.mem_map.mp listed
      rw [leaves built adds]
      refine ⟨entry.2.map fun route => (route.method, route.dispatch),
        List.mem_append_right _ (List.mem_map.mpr ⟨entry, inside, ?_⟩), ?_⟩
      · rw [path]
      · refine List.mem_map.mpr ⟨route, ?_, rfl⟩
        rw [RouteRegistry.entry_routes inside, path]
        exact List.mem_filter.mpr ⟨member, decide_eq_true rfl⟩

/-! ## What registering and building promise -/

/-- A refused registration leaves what was registered, and what of it came before the refusal;
the routes have keys of their own; each runs the layers declared above it, the outermost first
and each once, and then its handler; and a registry that refused nothing is built. -/
structure Registers (matcher : PatternMatcher)
    (registrations : List (RouteRegistration Request Answer)) : Prop where
  refusals : ∀ earlier registration later, registrations = earlier ++ registration :: later →
    ∃ added, ((RouteRegistry.machine matcher).run RouteRegistry.new earlier).Leaves registration
      (((RouteRegistry.machine matcher).run RouteRegistry.new earlier).register matcher registration)
      added
  distinct : (((RouteRegistry.machine matcher).run RouteRegistry.new registrations).routes.map
    Route.key).Nodup
  layers : ∀ route ∈ ((RouteRegistry.machine matcher).run RouteRegistry.new registrations).routes,
    (∃ registration ∈ registrations, route ∈ registration.routes) ∧
      route.dispatch = layered route.middleware route.handler
  served : ∀ policy built, router matcher
      ((RouteRegistry.machine matcher).run RouteRegistry.new registrations) policy = some (.ok built) →
    ∀ route ∈ ((RouteRegistry.machine matcher).run RouteRegistry.new registrations).routes,
      ∃ endpoints, (route.path, endpoints) ∈ built.routes ∧ (route.method, route.dispatch) ∈ endpoints
  built : (∀ entry ∈ (RouteRegistry.machine matcher).log RouteRegistry.new registrations,
      entry.2 = .ok ()) →
    ∀ policy, router matcher
      ((RouteRegistry.machine matcher).run RouteRegistry.new registrations) policy ≠ none

/-- Patterns that name a parameter of one place differently. -/
def namesApart : List String → List String → Bool
  | new :: rest, old :: others =>
      if new = old then namesApart rest others
      else new.toList.head? = some '\x7b' && old.toList.head? = some '\x7b'
  | _, _ => false

def segmentMatcher : PatternMatcher where
  malformed pattern := pattern.toList.head? ≠ some '/'
  overlaps new old := namesApart ((new.toList.splitOn '/').map String.ofList)
    ((old.toList.splitOn '/').map String.ofList)

/-- The first item by its number and the second by its name. -/
def itemRegistrations : List (RouteRegistration Unit Nat) :=
  [.route .get "/items/{id}" fun _ => 1, .route .get "/items/{name}" fun _ => 2]

end Renvor
