import Mathlib.Logic.Basic

/-! # Clients of a transactional store

A client runs statements against tables. An autocommit statement changes the
committed tables at once. A transaction works on its own copy, which becomes the
committed one when it commits and is lost otherwise. Each statement may fail,
and then changes nothing. What the client keeps for itself is never taken back.
-/

namespace Foundation

/-- A client's view of the store: the committed tables, the copy its open
transaction works on, how many statements it has run, and its own state. -/
structure Session (Tables Own : Type) where
  committed : Tables
  working : Tables
  statements : Nat
  own : Own

namespace Session

variable {Tables Own : Type}

/-- A session before its first statement. -/
def start (tables : Tables) (own : Own) : Session Tables Own := ⟨tables, tables, 0, own⟩

end Session

/-- A computation against the store, given the statements that fail. -/
def Client (Fault Tables Own Error α : Type) : Type :=
  (Nat → Option Fault) → Session Tables Own → Except Error α × Session Tables Own

namespace Client

variable {Fault Tables Own Error α β : Type}

instance : Monad (Client Fault Tables Own Error) where
  pure value := fun _ session => (.ok value, session)
  bind step next := fun faults session =>
    match step faults session with
    | (.ok value, session) => next value faults session
    | (.error error, session) => (.error error, session)

/-- Stops with an error. -/
def fail (error : Error) : Client Fault Tables Own Error α := fun _ session =>
  (.error error, session)

/-- Goes on with a value or stops with an error. -/
def ofExcept (result : Except Error α) : Client Fault Tables Own Error α := fun _ session =>
  (result, session)

/-- Changes the client's own state. -/
def keep (change : Own → Except Error α × Own) : Client Fault Tables Own Error α :=
  fun _ session => ((change session.own).1, { session with own := (change session.own).2 })

/-- A statement of its own. -/
def autocommit (explain : Fault → Error) (effect : Tables → Except Fault (α × Tables)) :
    Client Fault Tables Own Error α := fun faults session =>
  match faults session.statements with
  | some fault => (.error (explain fault), { session with statements := session.statements + 1 })
  | none => match effect session.committed with
      | .error fault =>
          (.error (explain fault), { session with statements := session.statements + 1 })
      | .ok (value, tables) =>
          (.ok value, { session with committed := tables, statements := session.statements + 1 })

/-- Opens a transaction. -/
def begin (explain : Fault → Error) : Client Fault Tables Own Error Unit := fun faults session =>
  match faults session.statements with
  | some fault => (.error (explain fault), { session with statements := session.statements + 1 })
  | none =>
      (.ok (), { session with working := session.committed, statements := session.statements + 1 })

/-- A statement of the open transaction, whose failure the client looks at. -/
def attempt (effect : Tables → Except Fault (α × Tables)) :
    Client Fault Tables Own Error (Except Fault α) := fun faults session =>
  match faults session.statements with
  | some fault => (.ok (.error fault), { session with statements := session.statements + 1 })
  | none => match effect session.working with
      | .error fault => (.ok (.error fault), { session with statements := session.statements + 1 })
      | .ok (value, tables) =>
          (.ok (.ok value), { session with working := tables, statements := session.statements + 1 })

/-- A statement of the open transaction. -/
def query (explain : Fault → Error) (effect : Tables → Except Fault (α × Tables)) :
    Client Fault Tables Own Error α := do
  match ← attempt effect with
  | .ok value => pure value
  | .error fault => fail (explain fault)

/-- Ends the transaction; its work is committed unless the statement fails. -/
def commit (explain : Fault → Error) : Client Fault Tables Own Error Unit := fun faults session =>
  match faults session.statements with
  | some fault => (.error (explain fault), { session with statements := session.statements + 1 })
  | none =>
      (.ok (), { session with committed := session.working, statements := session.statements + 1 })

/-- Ends the transaction and gives its work up. -/
def rollback (explain : Fault → Error) : Client Fault Tables Own Error Unit :=
  fun faults session =>
    match faults session.statements with
    | some fault => (.error (explain fault), { session with statements := session.statements + 1 })
    | none => (.ok (), { session with statements := session.statements + 1 })

/-- No statement fails by itself. -/
def quiet : Nat → Option Fault := fun _ => none

section Quiet

variable (explain : Fault → Error) (effect : Tables → Except Fault (α × Tables))
  (session : Session Tables Own)

@[simp] theorem pure_apply (value : α) (faults : Nat → Option Fault) :
    (pure value : Client Fault Tables Own Error α) faults session = (.ok value, session) := rfl

@[simp] theorem bind_apply (step : Client Fault Tables Own Error α)
    (next : α → Client Fault Tables Own Error β) (faults : Nat → Option Fault) :
    (step >>= next) faults session =
      match step faults session with
      | (.ok value, session) => next value faults session
      | (.error error, session) => (.error error, session) := rfl

@[simp] theorem map_apply (apply : α → β) (step : Client Fault Tables Own Error α)
    (faults : Nat → Option Fault) :
    (apply <$> step) faults session =
      match step faults session with
      | (.ok value, session) => (.ok (apply value), session)
      | (.error error, session) => (.error error, session) := rfl

@[simp] theorem fail_apply (error : Error) (faults : Nat → Option Fault) :
    (fail error : Client Fault Tables Own Error α) faults session = (.error error, session) := rfl

@[simp] theorem ofExcept_apply (result : Except Error α) (faults : Nat → Option Fault) :
    (ofExcept result : Client Fault Tables Own Error α) faults session = (result, session) := rfl

@[simp] theorem keep_apply (change : Own → Except Error α × Own) (faults : Nat → Option Fault) :
    (keep change : Client Fault Tables Own Error α) faults session =
      ((change session.own).1, { session with own := (change session.own).2 }) := rfl

@[simp] theorem autocommit_quiet :
    autocommit explain effect quiet session =
      match effect session.committed with
      | .error fault =>
          (.error (explain fault), { session with statements := session.statements + 1 })
      | .ok (value, tables) =>
          (.ok value,
            { session with committed := tables, statements := session.statements + 1 }) := rfl

@[simp] theorem begin_quiet :
    begin explain quiet session =
      (.ok (), { session with
        working := session.committed, statements := session.statements + 1 }) := rfl

@[simp] theorem attempt_quiet :
    (attempt effect : Client Fault Tables Own Error _) quiet session =
      match effect session.working with
      | .error fault => (.ok (.error fault), { session with statements := session.statements + 1 })
      | .ok (value, tables) =>
          (.ok (.ok value),
            { session with working := tables, statements := session.statements + 1 }) := rfl

@[simp] theorem query_quiet :
    query explain effect quiet session =
      match effect session.working with
      | .error fault =>
          (.error (explain fault), { session with statements := session.statements + 1 })
      | .ok (value, tables) =>
          (.ok value,
            { session with working := tables, statements := session.statements + 1 }) := by
  simp only [query, bind_apply, attempt_quiet]
  cases effect session.working <;> rfl

@[simp] theorem commit_quiet :
    commit explain quiet session =
      (.ok (), { session with
        committed := session.working, statements := session.statements + 1 }) := rfl

@[simp] theorem rollback_quiet :
    rollback explain quiet session =
      (.ok (), { session with statements := session.statements + 1 }) := rfl

end Quiet

/-! ## Where a computation leads -/

/-- What holds of the result of a computation and of the session after it,
whichever statements fail. -/
def Leads (faults : Nat → Option Fault) (client : Client Fault Tables Own Error α)
    (session : Session Tables Own) (post : Except Error α → Session Tables Own → Prop) : Prop :=
  post (client faults session).1 (client faults session).2

section Leads

variable {explain : Fault → Error} {effect : Tables → Except Fault (α × Tables)}
  {faults : Nat → Option Fault} {session : Session Tables Own}
  {post : Except Error α → Session Tables Own → Prop}

theorem leads_bind {step : Client Fault Tables Own Error α}
    {next : α → Client Fault Tables Own Error β}
    {last : Except Error β → Session Tables Own → Prop} :
    Leads faults (step >>= next) session last ↔
      Leads faults step session fun result after => match result with
        | .ok value => Leads faults (next value) after last
        | .error error => last (.error error) after := by
  unfold Leads
  rw [bind_apply]
  generalize step faults session = reached
  obtain ⟨_ | _, after⟩ := reached <;> exact .rfl

theorem Leads.bind {step : Client Fault Tables Own Error α}
    {next : α → Client Fault Tables Own Error β}
    {last : Except Error β → Session Tables Own → Prop}
    (first : Leads faults step session fun result after => match result with
      | .ok value => Leads faults (next value) after last
      | .error error => last (.error error) after) :
    Leads faults (step >>= next) session last :=
  leads_bind.mpr first

theorem Leads.pure {value : α} (holds : post (.ok value) session) :
    Leads faults (pure value) session post := holds

theorem Leads.ofExcept {result : Except Error α} (holds : post result session) :
    Leads faults (ofExcept result) session post := holds

theorem Leads.begin {post : Except Error Unit → Session Tables Own → Prop}
    (fails : ∀ fault, faults session.statements = some fault →
      post (.error (explain fault)) { session with statements := session.statements + 1 })
    (works : faults session.statements = none → post (.ok ()) { session with
      working := session.committed, statements := session.statements + 1 }) :
    Leads faults (begin explain) session post := by
  unfold Leads Client.begin
  cases fate : faults session.statements with
  | some fault => exact fails fault fate
  | none => exact works fate

theorem Leads.query {value : α} {tables : Tables}
    (does : effect session.working = .ok (value, tables))
    (fails : ∀ fault, faults session.statements = some fault →
      post (.error (explain fault)) { session with statements := session.statements + 1 })
    (works : faults session.statements = none → post (.ok value) { session with
      working := tables, statements := session.statements + 1 }) :
    Leads faults (query explain effect) session post := by
  unfold Leads Client.query
  simp only [bind_apply, attempt]
  cases fate : faults session.statements with
  | some fault => exact fails fault fate
  | none =>
      simp only [does]
      exact works fate

theorem Leads.commit {post : Except Error Unit → Session Tables Own → Prop}
    (fails : ∀ fault, faults session.statements = some fault →
      post (.error (explain fault)) { session with statements := session.statements + 1 })
    (works : faults session.statements = none → post (.ok ()) { session with
      committed := session.working, statements := session.statements + 1 }) :
    Leads faults (commit explain) session post := by
  unfold Leads Client.commit
  cases fate : faults session.statements with
  | some fault => exact fails fault fate
  | none => exact works fate

theorem Leads.autocommit {value : α} {tables : Tables}
    (does : effect session.committed = .ok (value, tables))
    (fails : ∀ fault, faults session.statements = some fault →
      post (.error (explain fault)) { session with statements := session.statements + 1 })
    (works : faults session.statements = none → post (.ok value) { session with
      committed := tables, statements := session.statements + 1 }) :
    Leads faults (autocommit explain effect) session post := by
  unfold Leads Client.autocommit
  cases fate : faults session.statements with
  | some fault => exact fails fault fate
  | none =>
      simp only [does]
      exact works fate

/-! A statement of the open transaction leaves the committed tables alone. -/

theorem Leads.begin_any {post : Except Error Unit → Session Tables Own → Prop}
    (any : ∀ result after, after.committed = session.committed → post result after) :
    Leads faults (Client.begin explain) session post :=
  .begin (fun _ _ => any _ _ rfl) fun _ => any _ _ rfl

theorem Leads.attempt_any {post : Except Error (Except Fault α) → Session Tables Own → Prop}
    (any : ∀ result after, after.committed = session.committed → post (.ok result) after) :
    Leads faults (Client.attempt effect) session post := by
  unfold Leads Client.attempt
  cases faults session.statements with
  | some fault => exact any _ _ rfl
  | none =>
      cases effect session.working with
      | error fault => exact any _ _ rfl
      | ok reached => exact any _ _ rfl

theorem Leads.query_any
    (any : ∀ result after, after.committed = session.committed → post result after) :
    Leads faults (Client.query explain effect) session post :=
  .bind <| .attempt_any fun result after same => match result with
    | .ok _ => any _ after same
    | .error _ => any _ after same

theorem Leads.query_cases
    (fails : ∀ error after, after.committed = session.committed → post (.error error) after)
    (works : ∀ value tables, faults session.statements = none →
      effect session.working = .ok (value, tables) → post (.ok value) { session with
        working := tables, statements := session.statements + 1 }) :
    Leads faults (Client.query explain effect) session post := by
  unfold Leads Client.query
  rw [bind_apply]
  unfold attempt
  cases fate : faults session.statements with
  | some fault => exact fails _ _ rfl
  | none =>
      cases does : effect session.working with
      | error fault => exact fails _ _ rfl
      | ok reached => exact works _ _ fate does

theorem Leads.rollback_any {post : Except Error Unit → Session Tables Own → Prop}
    (any : ∀ result after, after.committed = session.committed → post result after) :
    Leads faults (Client.rollback explain) session post := by
  unfold Leads Client.rollback
  cases faults session.statements with
  | some fault => exact any _ _ rfl
  | none => exact any _ _ rfl

theorem Leads.autocommit_any
    (reads : ∀ value tables, effect session.committed = .ok (value, tables) →
      tables = session.committed)
    (any : ∀ result after, after.committed = session.committed → post result after) :
    Leads faults (Client.autocommit explain effect) session post := by
  unfold Leads Client.autocommit
  cases faults session.statements with
  | some fault => exact any _ _ rfl
  | none =>
      cases does : effect session.committed with
      | error fault => exact any _ _ rfl
      | ok reached => exact any _ _ (reads _ _ does)

end Leads

/-- The first failure among so many statements from a number on. -/
def firstFault (faults : Nat → Option Fault) (number : Nat) : Nat → Option Fault
  | 0 => none
  | count + 1 => match faults number with
      | some fault => some fault
      | none => firstFault faults (number + 1) count

theorem firstFault_some {faults : Nat → Option Fault} {number : Nat} {fault : Fault}
    (fails : faults number = some fault) (count : Nat) :
    firstFault faults number (count + 1) = some fault := by
  rw [firstFault, fails]

theorem firstFault_none {faults : Nat → Option Fault} {number : Nat}
    (works : faults number = none) (count : Nat) :
    firstFault faults number (count + 1) = firstFault faults (number + 1) count := by
  rw [firstFault, works]

/-- Where nothing fails there is no first failure. -/
theorem firstFault_quiet (number count : Nat) :
    firstFault (quiet : Nat → Option Fault) number count = none := by
  induction count generalizing number with
  | zero => rfl
  | succ count ih => exact (firstFault_none rfl count).trans (ih _)

end Client

end Foundation
