import Mathlib.Data.List.Basic
import Renvor.Kernel.Text

/-! # Routes and groups of routes

A group is built by declarations. A route takes the layers that were declared above it
in its group, and behind those the enclosing groups declared above the group
(`Renvor.Declarations.build_routes`).
-/

namespace Renvor

inductive Method
  | get | post | put | patch | delete | head | options
  deriving DecidableEq

inductive RouteError
  | duplicate (method : Method) (path : String)
  | ceilingExceeded (limit : Nat)
  | invalidPath (path reason : String)
  | methodReservedByTransport (method : Method) (reason : String)
  deriving DecidableEq

/-! ## Paths -/

def trimEndSlashes (path : List Char) : List Char := (path.reverse.dropWhile (· = '/')).reverse

def joinPaths (front path : String) : String :=
  let front := trimEndSlashes front.toList
  if path = "/" then
    if front.isEmpty then "/" else String.ofList front
  else String.ofList (front ++ path.toList)

def validatePath (path : String) : Except RouteError Unit :=
  if path.isEmpty then .error (.invalidPath path "a path may not be empty")
  else if path.toList.head? ≠ some '/' then
    .error (.invalidPath path ("a path must begin with `/`"))
  else if path.toList.any isControl then
    .error (.invalidPath path "a path may not contain a control character")
  else .ok ()

/-- A path that is refused nowhere. -/
def ValidPath (path : String) : Prop := validatePath path = .ok ()

instance (path : String) : Decidable (ValidPath path) := inferInstanceAs (Decidable (_ = _))

theorem validPath_iff {path : String} : ValidPath path ↔
    path.toList.head? = some '/' ∧ ∀ character ∈ path.toList, isControl character = false := by
  unfold ValidPath validatePath
  constructor
  · intro valid
    split at valid
    next => cases valid
    next =>
      split at valid
      next => cases valid
      next rooted =>
        split at valid
        next => cases valid
        next clean => exact ⟨not_not.mp rooted, by simpa using clean⟩
  · rintro ⟨rooted, clean⟩
    have filled : ¬ path.isEmpty := by
      intro empty
      rw [String.isEmpty_iff.mp empty] at rooted
      cases rooted
    rw [if_neg filled, if_neg (not_not.mpr rooted), if_neg (by simpa using clean)]

/-- What the joined path is made of. -/
theorem toList_joinPaths (front path : String) : (joinPaths front path).toList =
    if path = "/" then
      if trimEndSlashes front.toList = [] then ['/'] else trimEndSlashes front.toList
    else trimEndSlashes front.toList ++ path.toList := by
  unfold joinPaths
  dsimp only
  split
  next =>
    by_cases empty : trimEndSlashes front.toList = []
    · rw [if_pos empty, empty]
      rfl
    · rw [if_neg empty, if_neg (by simpa using empty), String.toList_ofList]
  next => rw [String.toList_ofList]

theorem trimEndSlashes_prefix (path : List Char) : trimEndSlashes path <+: path := by
  unfold trimEndSlashes
  have suffix := List.dropWhile_suffix (l := path.reverse) (· = '/')
  rw [← List.reverse_prefix, List.reverse_reverse] at suffix
  exact suffix

/-- A valid path behind a valid one is valid. -/
theorem ValidPath.join {front path : String} (valid : ValidPath front) (fragment : ValidPath path) :
    ValidPath (joinPaths front path) := by
  rw [validPath_iff] at valid fragment ⊢
  have trimmed := trimEndSlashes_prefix front.toList
  have clean : ∀ character ∈ trimEndSlashes front.toList, isControl character = false :=
    fun character member => valid.2 character (trimmed.subset member)
  have rooted : trimEndSlashes front.toList ≠ [] →
      (trimEndSlashes front.toList).head? = some '/' := by
    intro filled
    obtain ⟨rest, whole⟩ := trimmed
    have first := @List.head?_append_of_ne_nil _ _ rest filled
    rw [← first, whole]
    exact valid.1
  rw [toList_joinPaths]
  split
  next =>
    split
    next =>
      refine ⟨rfl, fun character member => ?_⟩
      rw [List.mem_singleton.mp member]
      rfl
    next filled => exact ⟨rooted filled, clean⟩
  next =>
    constructor
    · by_cases empty : trimEndSlashes front.toList = []
      · rw [empty]
        exact fragment.1
      · rw [List.head?_append_of_ne_nil _ empty]
        exact rooted empty
    · intro character member
      obtain member | member := List.mem_append.mp member
      · exact clean character member
      · exact fragment.2 character member

/-! ## Handlers and what is around them -/

section Routes

/-- What answers a request; the answer may be one that comes later. -/
abbrev Handler (Request Answer : Type) := Request → Answer

/-- Answers a request with what is inside it available. -/
abbrev Middleware (Request Answer : Type) := Request → (Request → Answer) → Answer

variable {Request Answer : Type}

/-- The rest of a chain, which ends at the handler. -/
structure Next (Request Answer : Type) where
  chain : List (Middleware Request Answer)
  position : Nat
  handler : Handler Request Answer

def Next.run (next : Next Request Answer) (request : Request) : Answer :=
  match _ : next.chain[next.position]? with
  | some middleware =>
      middleware request fun request => run { next with position := next.position + 1 } request
  | none => next.handler request
termination_by next.chain.length - next.position
decreasing_by
  obtain ⟨within, _⟩ := List.getElem?_eq_some_iff.mp ‹next.chain[next.position]? = some _›
  omega

/-- A handler inside layers, the first of them outermost. -/
def layered (layers : List (Middleware Request Answer)) (handler : Handler Request Answer) :
    Handler Request Answer :=
  layers.foldr (fun layer inner request => layer request inner) handler

/-- **A chain runs what is left of it, the outermost first, each layer once.** -/
theorem Next.run_eq (next : Next Request Answer) (request : Request) :
    next.run request = layered (next.chain.drop next.position) next.handler request := by
  induction left : next.chain.length - next.position generalizing next request with
  | zero =>
      have past : next.chain.length ≤ next.position := by omega
      unfold Next.run
      split
      next reached =>
        rw [List.getElem?_eq_none past] at reached
        cases reached
      next =>
        rw [List.drop_of_length_le past]
        rfl
  | succ count ih =>
      have within : next.position < next.chain.length := by omega
      unfold Next.run
      split
      next middleware reached =>
        rw [List.drop_eq_getElem_cons within]
        rw [List.getElem?_eq_getElem within] at reached
        cases reached
        refine congrArg (next.chain[next.position] request) (funext fun inner => ?_)
        exact ih { next with position := next.position + 1 } inner (by dsimp only; omega)
      next reached =>
        rw [List.getElem?_eq_getElem within] at reached
        cases reached

/-- A registered route; its layers outermost first. -/
structure Route (Request Answer : Type) where
  method : Method
  path : String
  group : Option String
  handler : Handler Request Answer
  middleware : List (Middleware Request Answer)

namespace Route

def dispatch (route : Route Request Answer) (request : Request) : Answer :=
  Next.run ⟨route.middleware, 0, route.handler⟩ request

theorem dispatch_eq (route : Route Request Answer) :
    route.dispatch = layered route.middleware route.handler :=
  funext fun request => Next.run_eq _ request

def key (route : Route Request Answer) : Method × String := (route.method, route.path)

/-- The route inside a group. -/
def within (route : Route Request Answer) (place : String → String)
    (layers : List (Middleware Request Answer)) : Route Request Answer :=
  { route with path := place route.path, middleware := layers ++ route.middleware }

end Route

structure RouteGroup (Request Answer : Type) where
  name : String
  pathPrefix : String
  routes : List (Route Request Answer)
  middleware : List (Middleware Request Answer)

namespace RouteGroup

def new (name pathPrefix : String) : Except RouteError (RouteGroup Request Answer) := do
  validatePath pathPrefix
  return ⟨name, pathPrefix, [], []⟩

def layer (group : RouteGroup Request Answer) (middleware : Middleware Request Answer) :
    RouteGroup Request Answer :=
  { group with middleware := group.middleware ++ [middleware] }

/-- Takes one route of a child in. -/
def adopt (group : RouteGroup Request Answer) (route : Route Request Answer) :
    Except RouteError (RouteGroup Request Answer) := do
  let composed := joinPaths group.pathPrefix route.path
  validatePath composed
  return { group with routes := group.routes ++ [{ route with
    path := composed, middleware := group.middleware ++ route.middleware }] }

def group (parent child : RouteGroup Request Answer) :
    Except RouteError (RouteGroup Request Answer) :=
  child.routes.foldlM adopt parent

def route (group : RouteGroup Request Answer) (method : Method) (path : String)
    (handler : Handler Request Answer) : Except RouteError (RouteGroup Request Answer) := do
  validatePath path
  return { group with routes := group.routes ++
    [⟨method, joinPaths group.pathPrefix path, some group.name, handler, group.middleware⟩] }

end RouteGroup

/-- What is declared in a group, from its first line to its last. -/
inductive Declarations (Request Answer : Type)
  | done
  | layer (middleware : Middleware Request Answer) (rest : Declarations Request Answer)
  | route (method : Method) (path : String) (handler : Handler Request Answer)
      (rest : Declarations Request Answer)
  | group (name pathPrefix : String) (inner rest : Declarations Request Answer)

namespace Declarations

/-- Builds a group. What is refused gives up the group it is in. -/
def build : Declarations Request Answer → RouteGroup Request Answer →
    Except RouteError (RouteGroup Request Answer)
  | done, begun => .ok begun
  | layer middleware rest, begun => rest.build (begun.layer middleware)
  | route method path handler rest, begun => do
      let begun ← begun.route method path handler
      rest.build begun
  | group name pathPrefix inner rest, begun => do
      let child ← RouteGroup.new name pathPrefix
      let child ← inner.build child
      let begun ← begun.group child
      rest.build begun

/-! ## What declarations stand for -/

/-- The routes that are declared: each at its place, inside the layers that stand above it
in its group and above that group in those around it. -/
def routes (name : String) : (enclosing : List (Middleware Request Answer)) →
    (place : String → String) → Declarations Request Answer → List (Route Request Answer)
  | _, _, done => []
  | enclosing, place, layer middleware rest => rest.routes name (enclosing ++ [middleware]) place
  | enclosing, place, route method path handler rest =>
      ⟨method, place path, some name, handler, enclosing⟩ :: rest.routes name enclosing place
  | enclosing, place, group child pathPrefix inner rest =>
      inner.routes child enclosing (place ∘ joinPaths pathPrefix) ++
        rest.routes name enclosing place

/-- Every path that is written is valid. -/
def Valid : Declarations Request Answer → Prop
  | done => True
  | layer _ rest => rest.Valid
  | route _ path _ rest => ValidPath path ∧ rest.Valid
  | group _ pathPrefix inner rest => ValidPath pathPrefix ∧ inner.Valid ∧ rest.Valid

/-- A group around a group puts its prefix and its layers in front. -/
theorem routes_within (name : String) (layers enclosing : List (Middleware Request Answer))
    (outer place : String → String) (declared : Declarations Request Answer) :
    (declared.routes name enclosing place).map (fun route => route.within outer layers) =
      declared.routes name (layers ++ enclosing) (outer ∘ place) := by
  induction declared generalizing name enclosing place with
  | done => rfl
  | layer middleware rest ih =>
      dsimp only [routes]
      rw [ih, List.append_assoc]
  | route method path handler rest ih =>
      dsimp only [routes]
      rw [List.map_cons, ih]
      rfl
  | group child pathPrefix inner rest ihInner ihRest =>
      dsimp only [routes]
      rw [List.map_append, ihInner, ihRest]
      rfl

end Declarations

namespace RouteGroup

variable {group child built : RouteGroup Request Answer}

theorem new_eq {name pathPrefix : String} (valid : ValidPath pathPrefix) :
    (new name pathPrefix : Except RouteError (RouteGroup Request Answer)) =
      .ok ⟨name, pathPrefix, [], []⟩ := by
  unfold new
  rw [valid]
  rfl

theorem new_error {name pathPrefix : String} (refused : ¬ ValidPath pathPrefix) :
    ∃ error, (new name pathPrefix : Except RouteError (RouteGroup Request Answer)) =
      .error error := by
  unfold new
  cases checked : validatePath pathPrefix with
  | ok => exact (refused checked).elim
  | error error => exact ⟨error, rfl⟩

theorem route_eq {method : Method} {path : String} {handler : Handler Request Answer}
    (valid : ValidPath path) : group.route method path handler = .ok { group with
      routes := group.routes ++
        [⟨method, joinPaths group.pathPrefix path, some group.name, handler, group.middleware⟩] } := by
  unfold route
  rw [valid]
  rfl

theorem route_error {method : Method} {path : String} {handler : Handler Request Answer}
    (refused : ¬ ValidPath path) : ∃ error, group.route method path handler = .error error := by
  unfold route
  cases checked : validatePath path with
  | ok => exact (refused checked).elim
  | error error => exact ⟨error, rfl⟩

/-- A group of valid paths is taken in whole. -/
theorem group_eq (rooted : ValidPath group.pathPrefix)
    (valid : ∀ route ∈ child.routes, ValidPath route.path) :
    group.group child = .ok { group with
      routes := group.routes ++ (child.routes.map fun route =>
        route.within (joinPaths group.pathPrefix) group.middleware) } := by
  unfold RouteGroup.group
  generalize child.routes = taken at valid
  induction taken generalizing group with
  | nil =>
      rw [List.map_nil, List.append_nil]
      rfl
  | cons route rest ih =>
      have composed : ValidPath (joinPaths group.pathPrefix route.path) :=
        rooted.join (valid route List.mem_cons_self)
      have adopted : group.adopt route = .ok { group with routes := group.routes ++
          [route.within (joinPaths group.pathPrefix) group.middleware] } := by
        dsimp only [adopt]
        rw [composed]
        rfl
      have next := @ih { group with routes := group.routes ++
        [route.within (joinPaths group.pathPrefix) group.middleware] } rooted
        fun other member => valid other (List.mem_cons_of_mem _ member)
      rw [List.foldlM_cons, adopted]
      dsimp only [bind, Except.bind]
      rw [next]
      simp only [List.map_cons, List.append_assoc, List.singleton_append]

end RouteGroup

namespace Declarations

/-- What is declared where every place leads to a valid path has valid paths. -/
theorem valid_routes {name : String} {enclosing : List (Middleware Request Answer)}
    {place : String → String} {declared : Declarations Request Answer} (valid : declared.Valid)
    (places : ∀ path, ValidPath path → ValidPath (place path)) :
    ∀ route ∈ declared.routes name enclosing place, ValidPath route.path := by
  induction declared generalizing name enclosing place with
  | done => exact List.forall_mem_nil _
  | layer middleware rest ih => exact ih valid places
  | route method path handler rest ih =>
      intro route member
      obtain rfl | member := List.mem_cons.mp member
      · exact places path valid.1
      · exact ih valid.2 places route member
  | group child pathPrefix inner rest ihInner ihRest =>
      intro route member
      obtain member | member := List.mem_append.mp member
      · exact ihInner valid.2.1 (fun path fits => places _ (valid.1.join fits)) route member
      · exact ihRest valid.2.2 places route member

/-- **A group is built when every path in it is valid, and then holds what it declares.** -/
theorem build_eq {declared : Declarations Request Answer} {group : RouteGroup Request Answer}
    (rooted : ValidPath group.pathPrefix) (valid : declared.Valid) :
    ∃ layers, declared.build group = .ok { group with
      routes := group.routes ++
        (declared.routes group.name group.middleware (joinPaths group.pathPrefix))
      middleware := group.middleware ++ layers } := by
  induction declared generalizing group with
  | done =>
      refine ⟨[], ?_⟩
      dsimp only [build, routes]
      rw [List.append_nil, List.append_nil]
  | layer middleware rest ih =>
      obtain ⟨layers, builds⟩ := @ih (group.layer middleware) rooted valid
      refine ⟨middleware :: layers, ?_⟩
      dsimp only [build, routes]
      rw [builds]
      simp only [RouteGroup.layer, List.append_assoc, List.singleton_append]
  | route method path handler rest ih =>
      obtain ⟨layers, builds⟩ := @ih { group with routes := group.routes ++
        [⟨method, joinPaths group.pathPrefix path, some group.name, handler, group.middleware⟩] }
        rooted valid.2
      refine ⟨layers, ?_⟩
      dsimp only [build, routes]
      rw [RouteGroup.route_eq valid.1]
      dsimp only [bind, Except.bind]
      rw [builds]
      simp only [List.append_assoc, List.singleton_append]
  | group name pathPrefix inner rest ihInner ihRest =>
      obtain ⟨childLayers, childBuilds⟩ := @ihInner ⟨name, pathPrefix, [], []⟩ valid.1 valid.2.1
      have places := @valid_routes _ _ name [] _ inner valid.2.1 fun path fits => valid.1.join fits
      obtain ⟨layers, builds⟩ := @ihRest { group with routes := group.routes ++
        (inner.routes name group.middleware (joinPaths group.pathPrefix ∘ joinPaths pathPrefix)) }
        rooted valid.2.2
      refine ⟨layers, ?_⟩
      dsimp only [build, routes]
      rw [RouteGroup.new_eq valid.1]
      dsimp only [bind, Except.bind]
      rw [childBuilds]
      dsimp only
      rw [RouteGroup.group_eq rooted (by rw [List.nil_append]; exact places)]
      dsimp only
      rw [List.nil_append, routes_within, List.append_nil, builds]
      simp only [List.append_assoc]

/-- Where a path is not valid the group is refused. -/
theorem build_error {declared : Declarations Request Answer} {group : RouteGroup Request Answer}
    (rooted : ValidPath group.pathPrefix) (refused : ¬ declared.Valid) :
    ∃ error, declared.build group = .error error := by
  induction declared generalizing group with
  | done => exact (refused trivial).elim
  | layer middleware rest ih => exact @ih (group.layer middleware) rooted refused
  | route method path handler rest ih =>
      by_cases fits : ValidPath path
      · dsimp only [build]
        rw [RouteGroup.route_eq fits]
        exact @ih { group with routes := _ } rooted fun valid => refused ⟨fits, valid⟩
      · obtain ⟨error, refuses⟩ := @RouteGroup.route_error _ _ group method path handler fits
        refine ⟨error, ?_⟩
        dsimp only [build]
        rw [refuses]
        rfl
  | group name pathPrefix inner rest ihInner ihRest =>
      dsimp only [build]
      by_cases fits : ValidPath pathPrefix
      · rw [RouteGroup.new_eq fits]
        dsimp only [bind, Except.bind]
        by_cases inside : inner.Valid
        · obtain ⟨childLayers, childBuilds⟩ := @build_eq _ _ inner ⟨name, pathPrefix, [], []⟩ fits inside
          have places := @valid_routes _ _ name [] _ inner inside fun path valid => fits.join valid
          rw [childBuilds]
          dsimp only
          rw [RouteGroup.group_eq rooted (by rw [List.nil_append]; exact places)]
          exact @ihRest { group with routes := _ } rooted fun valid => refused ⟨fits, inside, valid⟩
        · obtain ⟨error, refuses⟩ := @ihInner ⟨name, pathPrefix, [], []⟩ fits inside
          rw [refuses]
          exact ⟨error, rfl⟩
      · obtain ⟨error, refuses⟩ := @RouteGroup.new_error Request Answer name pathPrefix fits
        rw [refuses]
        exact ⟨error, rfl⟩

end Declarations

end Routes

end Renvor
