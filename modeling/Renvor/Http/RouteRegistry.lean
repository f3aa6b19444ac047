import Renvor.Foundation.Machine
import Renvor.Http.Route

/-! # The registry of routes

A registration adds the routes it declares one at a time, and stops at the first that
is refused. Every registration of a sequence is accepted exactly when what all of them
declare can stand together (`Renvor.RouteRegistry.accepted_iff`).
-/

namespace Renvor

open Foundation

def maxRoutes : Nat := 4096

/-- The router's matcher of patterns, which stands for code of another package: what a
pattern must not be, and which other pattern it must not meet. -/
structure PatternMatcher where
  malformed : String → Bool
  overlaps : String → String → Bool

/-- Adds a pattern to the different ones that are there, or panics. -/
def PatternMatcher.add (matcher : PatternMatcher) (earlier : List String) (pattern : String) :
    Option (List String) :=
  if matcher.malformed pattern || earlier.any (fun other => matcher.overlaps pattern other) then none
  else some (earlier ++ [pattern])

/-- Asks a router that has no pattern yet. -/
def acceptsPattern (matcher : PatternMatcher) (path : String) : Bool := (matcher.add [] path).isSome

theorem acceptsPattern_iff {matcher : PatternMatcher} {path : String} :
    acceptsPattern matcher path = true ↔ matcher.malformed path = false := by
  unfold acceptsPattern PatternMatcher.add
  cases matcher.malformed path <;> simp

structure RouteRegistry (Request Answer : Type) where
  routes : List (Route Request Answer)
  seen : List (Method × String)

/-- A call of the registry. -/
inductive RouteRegistration (Request Answer : Type)
  | route (method : Method) (path : String) (handler : Handler Request Answer)
  | group (name pathPrefix : String) (declared : Declarations Request Answer)

variable {Request Answer : Type}

namespace RouteRegistration

/-- The routes a registration stands for. -/
def routes : RouteRegistration Request Answer → List (Route Request Answer)
  | route method path handler => [⟨method, path, none, handler, []⟩]
  | group name pathPrefix declared => declared.routes name [] (joinPaths pathPrefix)

/-- Every path that is written is valid. -/
def Valid : RouteRegistration Request Answer → Prop
  | route _ path _ => ValidPath path
  | group _ pathPrefix declared => ValidPath pathPrefix ∧ declared.Valid

end RouteRegistration

namespace RouteRegistry

def new : RouteRegistry Request Answer := ⟨[], []⟩

variable (matcher : PatternMatcher) (registry : RouteRegistry Request Answer)

def push (route : Route Request Answer) : RouteRegistry Request Answer × Except RouteError Unit :=
  if route.method = .options then
    (registry, .error (.methodReservedByTransport route.method
      "the CORS layer answers every OPTIONS request as a preflight"))
  else if !acceptsPattern matcher route.path then
    (registry, .error (.invalidPath route.path
      ("the router will not accept this pattern; a parameter must be `{name}` occupying the end " ++
        "of its segment, a catch-all `{*name}` must be last, and `:name` is the pre-0.8 spelling")))
  else if maxRoutes ≤ registry.routes.length then (registry, .error (.ceilingExceeded maxRoutes))
  else if registry.seen.contains route.key then
    (registry, .error (.duplicate route.method route.path))
  else (⟨registry.routes ++ [route], registry.seen ++ [route.key]⟩, .ok ())

def route (method : Method) (path : String) (handler : Handler Request Answer) :
    RouteRegistry Request Answer × Except RouteError Unit :=
  match validatePath path with
  | .error error => (registry, .error error)
  | .ok () => registry.push matcher ⟨method, path, none, handler, []⟩

/-- Registers routes up to the first that is refused. -/
def pushAll : List (Route Request Answer) → RouteRegistry Request Answer →
    RouteRegistry Request Answer × Except RouteError Unit
  | [], registry => (registry, .ok ())
  | route :: rest, registry => match registry.push matcher route with
      | (after, .error error) => (after, .error error)
      | (after, .ok ()) => pushAll rest after

def group (group : RouteGroup Request Answer) :
    RouteRegistry Request Answer × Except RouteError Unit :=
  pushAll matcher group.routes registry

/-- A registration; a group that cannot be built reaches no registry. -/
def register : RouteRegistration Request Answer →
    RouteRegistry Request Answer × Except RouteError Unit
  | .route method path handler => registry.route matcher method path handler
  | .group name pathPrefix declared =>
      match (RouteGroup.new name pathPrefix).bind declared.build with
      | .error error => (registry, .error error)
      | .ok built => registry.group matcher built

def machine : Machine (RouteRegistry Request Answer) (RouteRegistration Request Answer)
    (Except RouteError Unit) := ⟨register matcher⟩

/-! ## What a registry holds -/

/-- The routes have keys of their own, and the router takes each. -/
structure Sound : Prop where
  seen : registry.seen = registry.routes.map Route.key
  distinct : (registry.routes.map Route.key).Nodup
  ceiling : registry.routes.length ≤ maxRoutes
  served : ∀ route ∈ registry.routes, route.method ≠ .options ∧ matcher.malformed route.path = false

/-- Routes that can join those there are. -/
structure Fits (joining : List (Route Request Answer)) : Prop where
  served : ∀ route ∈ joining, route.method ≠ .options ∧ matcher.malformed route.path = false
  room : registry.routes.length + joining.length ≤ maxRoutes
  distinct : ((registry.routes ++ joining).map Route.key).Nodup

variable {matcher registry}

theorem sound_new : (new : RouteRegistry Request Answer).Sound matcher :=
  ⟨rfl, List.nodup_nil, Nat.zero_le _, fun _ held => absurd held List.not_mem_nil⟩

theorem Sound.seen_contains (sound : registry.Sound matcher) {route : Route Request Answer} :
    registry.seen.contains route.key = true ↔ route.key ∈ registry.routes.map Route.key := by
  rw [List.contains_iff_mem, sound.seen]

/-- **A route is pushed when it fits, and otherwise nothing changes.** -/
theorem push_cases (sound : registry.Sound matcher) (route : Route Request Answer) :
    (registry.Fits matcher [route] ∧ registry.push matcher route =
      (⟨registry.routes ++ [route], registry.seen ++ [route.key]⟩, .ok ())) ∨
    (¬ registry.Fits matcher [route] ∧ ∃ error, registry.push matcher route = (registry, .error error)) := by
  unfold push
  split
  next reserved =>
    exact .inr ⟨fun fits => (fits.served route List.mem_cons_self).1 reserved, _, rfl⟩
  next free =>
    split
    next refused =>
      refine .inr ⟨fun fits => ?_, _, rfl⟩
      have accepted := acceptsPattern_iff.mpr (fits.served route List.mem_cons_self).2
      rw [accepted] at refused
      cases refused
    next accepts =>
      split
      next full =>
        refine .inr ⟨fun fits => ?_, _, rfl⟩
        have room := fits.room
        rw [List.length_singleton] at room
        omega
      next room =>
        have keys : ((registry.routes ++ [route]).map Route.key).Nodup ↔
            route.key ∉ registry.routes.map Route.key := by
          rw [List.map_append, List.map_singleton, List.perm_append_singleton .. |>.nodup_iff,
            List.nodup_cons]
          exact and_iff_left sound.distinct
        split
        next taken =>
          exact .inr ⟨fun fits => keys.mp fits.distinct (sound.seen_contains.mp taken), _, rfl⟩
        next unseen =>
          refine .inl ⟨⟨?_, ?_, ?_⟩, rfl⟩
          · intro other member
            rw [List.mem_singleton.mp member]
            exact ⟨free, acceptsPattern_iff.mp (by simpa using accepts)⟩
          · rw [List.length_singleton]
            omega
          · exact keys.mpr fun member => unseen (sound.seen_contains.mpr member)

theorem Sound.add (sound : registry.Sound matcher) {route : Route Request Answer}
    (fits : registry.Fits matcher [route]) :
    (RouteRegistry.mk (registry.routes ++ [route]) (registry.seen ++ [route.key])).Sound matcher where
  seen := by
    dsimp only
    rw [sound.seen, List.map_append]
    rfl
  distinct := fits.distinct
  ceiling := by
    rw [List.length_append]
    exact fits.room
  served := by
    intro other member
    obtain member | member := List.mem_append.mp member
    · exact sound.served other member
    · exact fits.served other member

/-- What fits one after the other fits together. -/
theorem fits_append {first second : List (Route Request Answer)} :
    registry.Fits matcher (first ++ second) ↔ registry.Fits matcher first ∧
      (RouteRegistry.mk (registry.routes ++ first)
        (registry.seen ++ first.map Route.key)).Fits matcher second := by
  constructor
  · rintro ⟨served, room, distinct⟩
    rw [List.length_append] at room
    rw [← List.append_assoc] at distinct
    refine ⟨⟨?_, ?_, ?_⟩, ⟨?_, ?_, distinct⟩⟩
    · exact fun route member => served route (List.mem_append_left second member)
    · omega
    · rw [List.map_append] at distinct
      exact (List.nodup_append.mp distinct).1
    · exact fun route member => served route (List.mem_append_right first member)
    · dsimp only
      rw [List.length_append]
      omega
  · rintro ⟨front, back⟩
    have room := back.room
    dsimp only at room
    rw [List.length_append] at room
    refine ⟨?_, ?_, ?_⟩
    · intro route member
      obtain member | member := List.mem_append.mp member
      · exact front.served route member
      · exact back.served route member
    · rw [List.length_append]
      omega
    · rw [← List.append_assoc]
      exact back.distinct

theorem fits_cons {route : Route Request Answer} {rest : List (Route Request Answer)} :
    registry.Fits matcher (route :: rest) ↔ registry.Fits matcher [route] ∧
      (RouteRegistry.mk (registry.routes ++ [route]) (registry.seen ++ [route.key])).Fits matcher
        rest :=
  @fits_append _ _ matcher registry [route] rest

/-- **Routes are registered up to the first that does not fit.** -/
theorem pushAll_spec (sound : registry.Sound matcher) (joining : List (Route Request Answer)) :
    ∃ added result, added <+: joining ∧
      pushAll matcher joining registry =
        (⟨registry.routes ++ added, registry.seen ++ added.map Route.key⟩, result) ∧
      (RouteRegistry.mk (registry.routes ++ added) (registry.seen ++ added.map Route.key)).Sound
        matcher ∧
      (result = .ok () ↔ added = joining) ∧ (result = .ok () ↔ registry.Fits matcher joining) := by
  induction joining generalizing registry with
  | nil =>
      refine ⟨[], .ok (), List.nil_prefix, ?_, ?_, iff_of_true rfl rfl, iff_of_true rfl ⟨?_, ?_, ?_⟩⟩
      · rw [List.append_nil, List.map_nil, List.append_nil]
        rfl
      · rw [List.append_nil, List.map_nil, List.append_nil]
        exact sound
      · exact fun _ none => absurd none List.not_mem_nil
      · exact sound.ceiling
      · rw [List.append_nil]
        exact sound.distinct
  | cons route rest ih =>
      unfold pushAll
      obtain ⟨fits, pushes⟩ | ⟨unfit, error, refuses⟩ := push_cases sound route
      · obtain ⟨added, result, begins, ends, holds, whole, together⟩ := ih (sound.add fits)
        have routes : registry.routes ++ route :: added = registry.routes ++ [route] ++ added :=
          List.append_cons _ _ _
        have keys : registry.seen ++ (route :: added).map Route.key =
            registry.seen ++ [route.key] ++ added.map Route.key := List.append_cons _ _ _
        refine ⟨route :: added, result, List.cons_prefix_cons.mpr ⟨rfl, begins⟩, ?_, ?_, ?_, ?_⟩
        · rw [pushes, routes, keys]
          exact ends
        · rw [routes, keys]
          exact holds
        · rw [whole, List.cons_inj_right]
        · rw [together, fits_cons]
          exact (and_iff_right fits).symm
      · refine ⟨[], .error error, List.nil_prefix, ?_, ?_, ?_, ?_⟩
        · rw [refuses, List.append_nil, List.map_nil, List.append_nil]
        · rw [List.append_nil, List.map_nil, List.append_nil]
          exact sound
        · exact iff_of_false nofun (List.cons_ne_nil route rest).symm
        · exact iff_of_false nofun fun fits => unfit (fits_cons.mp fits).1

/-- A registration of valid paths pushes what it declares. -/
theorem register_valid {registration : RouteRegistration Request Answer}
    (valid : registration.Valid) :
    registry.register matcher registration = pushAll matcher registration.routes registry := by
  cases registration with
  | route method path handler =>
      have checked : validatePath path = .ok () := valid
      dsimp only [register, route, RouteRegistration.routes, pushAll]
      rw [checked]
      dsimp only
      split
      next after error pushes => exact pushes
      next after pushes => exact pushes
  | group name pathPrefix declared =>
      obtain ⟨rooted, valid⟩ := valid
      obtain ⟨layers, builds⟩ :=
        @Declarations.build_eq _ _ declared ⟨name, pathPrefix, [], []⟩ rooted valid
      dsimp only [register, RouteRegistry.group]
      rw [RouteGroup.new_eq rooted]
      dsimp only [Except.bind]
      rw [builds]
      rfl

theorem register_invalid {registration : RouteRegistration Request Answer}
    (invalid : ¬ registration.Valid) :
    ∃ error, registry.register matcher registration = (registry, .error error) := by
  cases registration with
  | route method path handler =>
      dsimp only [register, route]
      cases checked : validatePath path with
      | ok => exact (invalid checked).elim
      | error error => exact ⟨error, rfl⟩
  | group name pathPrefix declared =>
      dsimp only [register]
      by_cases rooted : ValidPath pathPrefix
      · obtain ⟨error, refuses⟩ := @Declarations.build_error _ _ declared ⟨name, pathPrefix, [], []⟩
          rooted fun valid => invalid ⟨rooted, valid⟩
        rw [RouteGroup.new_eq rooted]
        dsimp only [Except.bind]
        rw [refuses]
        exact ⟨error, rfl⟩
      · obtain ⟨error, refuses⟩ := @RouteGroup.new_error Request Answer name pathPrefix rooted
        rw [refuses]
        exact ⟨error, rfl⟩

/-- What a registration leaves: the registry with the first of the routes it declares, all
of them when it is accepted. -/
structure Leaves (registry : RouteRegistry Request Answer)
    (registration : RouteRegistration Request Answer)
    (outcome : RouteRegistry Request Answer × Except RouteError Unit)
    (added : List (Route Request Answer)) : Prop where
  first : added <+: registration.routes
  after : outcome.1 = ⟨registry.routes ++ added, registry.seen ++ added.map Route.key⟩
  whole : outcome.2 = .ok () → added = registration.routes

/-- **A registration adds what it declares up to a refusal. It is accepted when its paths are
valid and its routes fit.** -/
theorem register_spec (sound : registry.Sound matcher)
    (registration : RouteRegistration Request Answer) :
    (∃ added, registry.Leaves registration (registry.register matcher registration) added) ∧
      (registry.register matcher registration).1.Sound matcher ∧
      ((registry.register matcher registration).2 = .ok () ↔
        registration.Valid ∧ registry.Fits matcher registration.routes) := by
  by_cases valid : registration.Valid
  · obtain ⟨added, result, begins, ends, holds, whole, together⟩ :=
      pushAll_spec sound registration.routes
    rw [register_valid valid, ends]
    exact ⟨⟨added, begins, rfl, whole.mp⟩, holds, together.trans (and_iff_right valid).symm⟩
  · obtain ⟨error, refuses⟩ := @register_invalid _ _ matcher registry _ valid
    rw [refuses]
    refine ⟨⟨[], List.nil_prefix, ?_, nofun⟩, sound, iff_of_false nofun fun both => valid both.1⟩
    rw [List.append_nil, List.map_nil, List.append_nil]

/-! ## Any sequence of registrations -/

/-- The routes that a sequence of registrations stands for. -/
def declared (registrations : List (RouteRegistration Request Answer)) :
    List (Route Request Answer) :=
  registrations.flatMap RouteRegistration.routes

/-- A sequence of registrations that nothing speaks against. -/
structure Acceptable (matcher : PatternMatcher)
    (registrations : List (RouteRegistration Request Answer)) : Prop where
  valid : ∀ registration ∈ registrations, registration.Valid
  fits : (new : RouteRegistry Request Answer).Fits matcher (declared registrations)

/-- Registries stay sound, and hold what was declared. -/
theorem run_spec (sound : registry.Sound matcher)
    (registrations : List (RouteRegistration Request Answer)) :
    ((machine matcher).run registry registrations).Sound matcher ∧
      (∀ route ∈ ((machine matcher).run registry registrations).routes,
        route ∈ registry.routes ∨ ∃ registration ∈ registrations, route ∈ registration.routes) ∧
      ((∀ entry ∈ (machine matcher).log registry registrations, entry.2 = .ok ()) ↔
        (∀ registration ∈ registrations, registration.Valid) ∧
          registry.Fits matcher (declared registrations)) ∧
      ((∀ entry ∈ (machine matcher).log registry registrations, entry.2 = .ok ()) →
        ((machine matcher).run registry registrations).routes =
          registry.routes ++ declared registrations) := by
  induction registrations generalizing registry with
  | nil =>
      have fits : registry.Fits matcher [] := by
        refine ⟨fun _ none => absurd none List.not_mem_nil, sound.ceiling, ?_⟩
        rw [List.append_nil]
        exact sound.distinct
      exact ⟨sound, fun route member => .inl member,
        iff_of_true (List.forall_mem_nil _) ⟨List.forall_mem_nil _, fits⟩,
        fun _ => (List.append_nil _).symm⟩
  | cons registration rest ih =>
      obtain ⟨⟨added, leaves⟩, holds, accepts⟩ := register_spec sound registration
      obtain ⟨stays, origin, all, whole⟩ := ih holds
      have declares : declared (registration :: rest) = registration.routes ++ declared rest := rfl
      refine ⟨stays, ?_, ?_, ?_⟩
      · intro route member
        obtain held | ⟨other, listed, from'⟩ := origin route member
        · rw [leaves.after] at held
          obtain before | new := List.mem_append.mp held
          · exact .inl before
          · exact .inr ⟨registration, List.mem_cons_self, leaves.first.subset new⟩
        · exact .inr ⟨other, List.mem_cons_of_mem registration listed, from'⟩
      · rw [Machine.log, List.forall_mem_cons, List.forall_mem_cons, declares, fits_append]
        change (registry.register matcher registration).2 = .ok () ∧ _ ↔ _
        constructor
        · rintro ⟨accepted, others⟩
          have after := leaves.after
          rw [leaves.whole accepted] at after
          obtain ⟨valid, fits⟩ := accepts.mp accepted
          obtain ⟨valids, together⟩ := all.mp others
          rw [after] at together
          exact ⟨⟨valid, valids⟩, fits, together⟩
        · rintro ⟨⟨valid, valids⟩, fits, together⟩
          have accepted := accepts.mpr ⟨valid, fits⟩
          have after := leaves.after
          rw [leaves.whole accepted] at after
          rw [← after] at together
          exact ⟨accepted, all.mpr ⟨valids, together⟩⟩
      · intro accepted
        rw [Machine.log, List.forall_mem_cons] at accepted
        have after := leaves.after
        rw [leaves.whole accepted.1] at after
        rw [declares, ← List.append_assoc]
        exact (whole accepted.2).trans (congrArg (fun left => left.routes ++ declared rest) after)

/-- **Every registration is accepted exactly when nothing speaks against what they declare.** -/
theorem accepted_iff (registrations : List (RouteRegistration Request Answer)) :
    (∀ entry ∈ (machine matcher).log new registrations, entry.2 = .ok ()) ↔
      Acceptable matcher registrations :=
  (run_spec sound_new registrations).2.2.1.trans
    ⟨fun both => ⟨both.1, both.2⟩, fun fine => ⟨fine.valid, fine.fits⟩⟩

end RouteRegistry

end Renvor
