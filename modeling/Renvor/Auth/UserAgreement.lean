import Mathlib.Data.List.Find
import Mathlib.Data.List.Pairwise
import Renvor.Auth.Registration

/-! # Two engines under one user repository

The repository leaves to the database what address is whose. An engine that
compares bytes and one that compares under a collation answer alike exactly as
long as no call asks for an address that looks like a registered one and is not
registered itself (`Renvor.repositories_agree`).
-/

namespace Renvor

open Foundation
open Foundation.Interleaving (Script)
open Foundation.Concurrent

/-- The calls of the user repository; a registration has its identifier drawn. -/
inductive UserCall
  | register (drawn : Option Sixteen) (email : String) (now : Instant)
  | findByEmail (email : String)
  | findById (id : UserId)
  | markEmailVerified (id : UserId) (now : Instant)

inductive UserAnswer
  | registered (outcome : Registration)
  | found (user : Option UserRecord)
  | marked

/-- What a call runs. -/
def UserCall.script : UserCall → Accounting DatabaseErrorKind UserAnswer
  | register drawn email now => .registered <$> SqlxUserRepository.register drawn email now
  | findByEmail email => .found <$> SqlxUserRepository.findByEmail email
  | findById id => .found <$> SqlxUserRepository.findById id
  | markEmailVerified id now => do
      SqlxUserRepository.markEmailVerified id now
      return .marked

/-- What a call answers and leaves, each statement working. -/
def UserCall.serve (call : UserCall) (engine : SqlEngine) (tables : AccountTables) :
    Except DatabaseErrorKind UserAnswer × AccountTables :=
  alone (AccountSql.run engine) (fun _ => .works) call.script tables

/-- Calls one after another, with their answers. -/
def userAnswers (engine : SqlEngine) (tables : AccountTables) :
    List UserCall → List (Except DatabaseErrorKind UserAnswer)
  | [] => []
  | call :: rest => (call.serve engine tables).1 :: userAnswers engine (call.serve engine tables).2 rest

/-- An address looks like a registered one only where it is registered itself. -/
def Plain (engine : SqlEngine) (users : List UserRow) (email : String) : Prop :=
  (∃ row ∈ users, engine.same row.email email = true) → ∃ row ∈ users, row.email = email

/-- The address a call asks for is plain, or the call does not come to ask. -/
def UserCall.Plain (engine : SqlEngine) (users : List UserRow) : UserCall → Prop
  | register none _ _ => True
  | register (some id) email _ => (∃ row ∈ users, row.id = id) ∨ Renvor.Plain engine users email
  | findByEmail email => Renvor.Plain engine users email
  | _ => True

/-- Each call's address is plain among those registered before it. -/
def PlainCalls (engine : SqlEngine) (tables : AccountTables) : List UserCall → Prop
  | [] => True
  | call :: rest => call.Plain engine tables.users ∧
      PlainCalls engine (call.serve .bytewise tables).2 rest

/-- No two users' addresses look alike. -/
def Unlike (engine : SqlEngine) (users : List UserRow) : Prop :=
  users.Pairwise fun row other => engine.same row.email other.email = false

variable {engine : SqlEngine} {tables : AccountTables}

theorem Unlike.eq (collates : engine.Collates) {users : List UserRow} (unlike : Unlike engine users)
    {row other : UserRow} (member : row ∈ users) (among : other ∈ users)
    (same : engine.same row.email other.email = true) : row = other := by
  by_contra differs
  have symmetric : Std.Symm fun row other : UserRow => engine.same row.email other.email = false :=
    { symm := fun row other apart => by
        by_contra alike
        have back := collates.symm (Bool.not_eq_false _ ▸ alike)
        rw [apart] at back
        cases back }
  have apart := unlike.forall member among differs
  cases same.symm.trans apart

/-! ## What each call answers -/

/-- A user as read back. -/
def UserRow.record (row : UserRow) : UserRecord := ⟨row.id, row.email, row.emailVerifiedAt⟩

theorem intoUser_columns (row : UserRow) : intoUser (AccountSql.columns row) = .ok row.record := by
  show (userIdFrom row.id.bytes >>= _) = _
  rw [userIdFrom_bytes]
  rfl

/-- What follows the read of a user. -/
def readUser : Except DatabaseErrorKind (Option (List Byte × String × Option Instant)) →
    Accounting DatabaseErrorKind UserAnswer
  | .error kind => .fail kind
  | .ok none => .done (.found none)
  | .ok (some row) => (fun user => .found (some user)) <$> Script.ofExcept (intoUser row)

theorem findByEmail_eq (email : String) :
    (UserCall.findByEmail email).script = .query (.userByEmail email) readUser := by
  show Script.query _ _ = _
  congr 1
  funext reply
  obtain _ | _ | row := reply
  · rfl
  · rfl
  · show UserAnswer.found <$> some <$> Script.ofExcept (intoUser row) = _
    cases read : intoUser row <;> simp only [readUser, read] <;> rfl

theorem serve_findByEmail (engine : SqlEngine) (tables : AccountTables) (email : String) :
    (UserCall.findByEmail email).serve engine tables =
      (.ok (.found ((tables.users.find? fun row => engine.same row.email email).map
        UserRow.record)), tables) := by
  unfold UserCall.serve
  rw [findByEmail_eq, alone_query]
  show alone _ _ (readUser (.ok (Option.map AccountSql.columns (tables.users.find? _)))) tables = _
  cases tables.users.find? fun row => engine.same row.email email with
  | none => rfl
  | some row =>
      show alone _ _ (_ <$> Script.ofExcept (intoUser (AccountSql.columns row))) tables = _
      rw [intoUser_columns]
      rfl

theorem alone_readUser (engine other : SqlEngine)
    (reply : Except DatabaseErrorKind (Option (List Byte × String × Option Instant)))
    (tables : AccountTables) :
    alone (AccountSql.run engine) (fun _ => .works) (readUser reply) tables =
        alone (AccountSql.run other) (fun _ => .works) (readUser reply) tables ∧
      (alone (AccountSql.run engine) (fun _ => .works) (readUser reply) tables).2 = tables := by
  obtain _ | _ | row := reply
  · exact ⟨rfl, rfl⟩
  · exact ⟨rfl, rfl⟩
  · show alone _ _ (_ <$> Script.ofExcept (intoUser row)) tables =
        alone _ _ (_ <$> Script.ofExcept (intoUser row)) tables ∧
      (alone _ _ (_ <$> Script.ofExcept (intoUser row)) tables).2 = tables
    cases intoUser row <;> exact ⟨rfl, rfl⟩

theorem findById_eq (id : UserId) :
    (UserCall.findById id).script = .query (.userById id) readUser := by
  show Script.query _ _ = _
  congr 1
  funext reply
  obtain _ | _ | row := reply
  · rfl
  · rfl
  · show UserAnswer.found <$> some <$> Script.ofExcept (intoUser row) = _
    cases read : intoUser row <;> simp only [readUser, read] <;> rfl

/-- A user is read by its identifier alike on every engine. -/
theorem serve_findById (engine other : SqlEngine) (tables : AccountTables) (id : UserId) :
    (UserCall.findById id).serve engine tables = (UserCall.findById id).serve other tables ∧
      ((UserCall.findById id).serve engine tables).2 = tables := by
  unfold UserCall.serve
  rw [findById_eq, alone_query, alone_query]
  exact alone_readUser engine other _ tables

/-- What follows a registration's insert. -/
def readRegistration (id : UserId) : Except DatabaseErrorKind Unit →
    Accounting DatabaseErrorKind UserAnswer
  | .ok () => .done (.registered (.created id))
  | .error .uniqueViolation => .done (.registered .alreadyRegistered)
  | .error kind => .fail kind

theorem register_script_eq (id : Sixteen) (email : String) (now : Instant) :
    (UserCall.register (some id) email now).script =
      .query (.insertUser (AuthenticationService.newUser id email now)) (readRegistration id) := by
  show Script.query _ _ = _
  congr 1
  funext reply
  cases reply with
  | error kind => cases kind <;> rfl
  | ok => rfl

/-- A registration whose address and identifier are free. -/
theorem serve_register_free (engine : SqlEngine) {tables : AccountTables} (id : Sixteen)
    (email : String) (now : Instant)
    (free : ∀ row ∈ tables.users, row.id ≠ id ∧ engine.same row.email email = false) :
    (UserCall.register (some id) email now).serve engine tables =
      (.ok (.registered (.created id)), { tables with
        users := tables.users ++ [AuthenticationService.newUser id email now] }) := by
  unfold UserCall.serve
  rw [register_script_eq, alone_query]
  obtain ⟨-, ran⟩ | ⟨⟨other, member, taken⟩, -⟩ := AuthenticationService.insertUser_cases engine
    tables (AuthenticationService.newUser id email now)
  · dsimp only
    rw [ran]
    rfl
  · obtain ⟨apart, unlike⟩ := free other member
    obtain clash | clash := taken
    · exact (apart clash).elim
    · cases clash.symm.trans unlike

/-- A registration whose address or identifier is taken. -/
theorem serve_register_taken (engine : SqlEngine) {tables : AccountTables} (id : Sixteen)
    (email : String) (now : Instant)
    (taken : ∃ row ∈ tables.users, row.id = id ∨ engine.same row.email email = true) :
    (UserCall.register (some id) email now).serve engine tables =
      (.ok (.registered .alreadyRegistered), tables) := by
  unfold UserCall.serve
  rw [register_script_eq, alone_query]
  obtain ⟨free, -⟩ | ⟨-, ran⟩ := AuthenticationService.insertUser_cases engine
    tables (AuthenticationService.newUser id email now)
  · obtain ⟨other, member, clash⟩ := taken
    obtain ⟨apart, unlike⟩ := free other member
    obtain clash | clash := clash
    · exact (apart clash).elim
    · cases clash.symm.trans unlike
  · dsimp only
    rw [ran]
    rfl

/-! ## Where the engines agree -/

/-- The engines answer a call alike exactly where it is plain. -/
structure Agrees (engine : SqlEngine) (tables : AccountTables) (call : UserCall) : Prop where
  answer : (call.serve .bytewise tables).1 = (call.serve engine tables).1 ↔
    call.Plain engine tables.users
  after : call.Plain engine tables.users →
    (call.serve .bytewise tables).2 = (call.serve engine tables).2
  unlike : Unlike engine (call.serve .bytewise tables).2.users ∨
    ¬ call.Plain engine tables.users

/-- A call served alike. -/
theorem Agrees.of_same {call : UserCall} (plain : call.Plain engine tables.users)
    (same : call.serve .bytewise tables = call.serve engine tables)
    (unlike : Unlike engine (call.serve engine tables).2.users) : Agrees engine tables call :=
  ⟨iff_of_true (congrArg Prod.fst same) plain, fun _ => congrArg Prod.snd same,
    .inl (same ▸ unlike)⟩

theorem agrees_findByEmail (collates : engine.Collates) (unlike : Unlike engine tables.users)
    (email : String) : Agrees engine tables (.findByEmail email) := by
  have bytes := serve_findByEmail .bytewise tables email
  have texts := serve_findByEmail engine tables email
  by_cases exact' : ∃ row ∈ tables.users, row.email = email
  · obtain ⟨row, member, rfl⟩ := exact'
    have alike : ∀ other ∈ tables.users, (engine.same other.email row.email = true ↔
        SqlEngine.bytewise.same other.email row.email = true) := by
      intro other among
      refine ⟨fun same => ?_, fun same => ?_⟩
      · rw [unlike.eq collates among member same]
        exact decide_eq_true rfl
      · rw [of_decide_eq_true same]
        exact collates.refl _
    have found : (tables.users.find? fun other => SqlEngine.bytewise.same other.email row.email) =
        tables.users.find? fun other => engine.same other.email row.email :=
      List.find?_congr fun other among => (Bool.eq_iff_iff.mpr (alike other among)).symm
    refine .of_same (fun _ => ⟨row, member, rfl⟩) (bytes.trans ?_) (texts ▸ unlike)
    rw [texts, found]
  · have none : (tables.users.find? fun row => SqlEngine.bytewise.same row.email email) = none :=
      List.find?_eq_none.mpr fun row member same =>
        exact' ⟨row, member, of_decide_eq_true same⟩
    cases found : tables.users.find? fun row => engine.same row.email email with
    | none =>
        refine .of_same ?_ (bytes.trans ?_) (texts ▸ unlike)
        · rintro ⟨row, member, same⟩
          exact (List.find?_eq_none.mp found row member same).elim
        · rw [texts, none, found]
    | some row =>
        have looks : ¬ UserCall.Plain engine tables.users (.findByEmail email) := fun plain =>
          exact' (plain ⟨row, List.mem_of_find?_eq_some found, by simpa using List.find?_some found⟩)
        refine ⟨iff_of_false ?_ looks, fun plain => (looks plain).elim, .inr looks⟩
        rw [bytes, texts, none, found]
        rintro ⟨⟩

theorem agrees_register (collates : engine.Collates) (unlike : Unlike engine tables.users)
    (id : Sixteen) (email : String) (now : Instant) :
    Agrees engine tables (.register (some id) email now) := by
  by_cases taken : ∃ row ∈ tables.users, row.id = id
  · obtain ⟨row, member, same⟩ := taken
    have bytes := serve_register_taken .bytewise id email now ⟨row, member, .inl same⟩
    have texts := serve_register_taken engine id email now ⟨row, member, .inl same⟩
    exact .of_same (.inl ⟨row, member, same⟩) (bytes.trans texts.symm) (texts ▸ unlike)
  by_cases exact' : ∃ row ∈ tables.users, row.email = email
  · obtain ⟨row, member, rfl⟩ := exact'
    have bytes := serve_register_taken .bytewise id row.email now
      ⟨row, member, .inr (decide_eq_true rfl)⟩
    have texts := serve_register_taken engine id row.email now
      ⟨row, member, .inr (collates.refl _)⟩
    exact .of_same (.inr fun _ => ⟨row, member, rfl⟩) (bytes.trans texts.symm) (texts ▸ unlike)
  have bytes := serve_register_free .bytewise id email now fun row member =>
    ⟨fun same => taken ⟨row, member, same⟩, decide_eq_false fun same => exact' ⟨row, member, same⟩⟩
  by_cases alike : ∃ row ∈ tables.users, engine.same row.email email = true
  · obtain ⟨row, member, same⟩ := alike
    have texts := serve_register_taken engine id email now ⟨row, member, .inr same⟩
    have looks : ¬ UserCall.Plain engine tables.users (.register (some id) email now) := by
      rintro (clash | plain)
      · exact taken clash
      · exact exact' (plain ⟨row, member, same⟩)
    refine ⟨iff_of_false ?_ looks, fun plain => (looks plain).elim, .inr looks⟩
    rw [bytes, texts]
    rintro ⟨⟩
  · have apart : ∀ row ∈ tables.users, engine.same row.email email = false := fun row member => by
      by_contra same
      exact alike ⟨row, member, Bool.not_eq_false _ ▸ same⟩
    have texts := serve_register_free engine id email now fun row member =>
      ⟨fun same => taken ⟨row, member, same⟩, apart row member⟩
    refine .of_same (.inr fun same => (alike same).elim) (bytes.trans texts.symm) ?_
    rw [texts]
    refine List.pairwise_append.mpr ⟨unlike, List.pairwise_singleton .., fun row member other => ?_⟩
    intro last
    obtain rfl := List.mem_singleton.mp last
    exact apart row member

theorem agrees (collates : engine.Collates) (unlike : Unlike engine tables.users)
    (call : UserCall) : Agrees engine tables call := by
  cases call with
  | register drawn email now =>
      cases drawn with
      | none => exact .of_same trivial rfl unlike
      | some id => exact agrees_register collates unlike id email now
  | findByEmail email => exact agrees_findByEmail collates unlike email
  | findById id =>
      obtain ⟨same, kept⟩ := serve_findById engine .bytewise tables id
      refine .of_same trivial same.symm ?_
      rw [kept]
      exact unlike
  | markEmailVerified id now =>
      refine .of_same trivial rfl ?_
      have emails : (tables.users.map UserRow.email).Pairwise fun email other =>
          engine.same email other = false := List.pairwise_map.mpr unlike
      have kept : ((UserCall.markEmailVerified id now).serve engine tables).2.users.map
          UserRow.email = tables.users.map UserRow.email := by
        show List.map UserRow.email (updateWhere _ _ tables.users) = _
        exact map_updateWhere fun _ _ => rfl
      rw [← kept] at emails
      exact List.pairwise_map.mp emails

/-- **The two engines answer alike** exactly where each call that asks for an
address asks for one that looks like no registered address but its own. -/
theorem repositories_agree (collates : engine.Collates) (unlike : Unlike engine tables.users)
    (calls : List UserCall) :
    userAnswers .bytewise tables calls = userAnswers engine tables calls ↔
      PlainCalls engine tables calls := by
  induction calls generalizing tables with
  | nil => exact iff_of_true rfl trivial
  | cons call rest ih =>
      have agrees := agrees collates unlike call
      unfold userAnswers PlainCalls
      rw [List.cons.injEq, agrees.answer]
      refine and_congr_right fun plain => ?_
      rw [← agrees.after plain]
      exact ih (agrees.unlike.resolve_right (not_not.mpr plain))

open AccountSample in
/-- An address in two spellings, found as it was registered. -/
theorem repositories_agree_spelt :
    userAnswers .bytewise .empty [.register (some (.counted 1)) address 0, .findByEmail address,
        .markEmailVerified (.counted 1) 5, .findById (.counted 1)] =
      userAnswers .caseless .empty [.register (some (.counted 1)) address 0, .findByEmail address,
        .markEmailVerified (.counted 1) 5, .findById (.counted 1)] := by
  have registered := @serve_register_free .bytewise .empty (.counted 1) address 0
    fun _ member => (List.not_mem_nil member).elim
  refine (repositories_agree SqlEngine.caseless_collates ?_ _).mpr ?_
  · exact List.Pairwise.nil
  · refine ⟨.inr ?_, ?_, trivial, trivial, trivial⟩
    · rintro ⟨_, ⟨⟩, -⟩
    · rw [registered]
      exact fun _ => ⟨_, List.mem_singleton_self _, rfl⟩

open AccountSample in
/-- The address in capitals looks like the address. -/
theorem address_toUpper : SqlEngine.caseless.same address address.toUpper = true ∧
    address ≠ address.toUpper := by
  constructor
  · have upper : address.toUpper.toList = address.toList.map Char.toUpper := String.toList_map
    refine decide_eq_true ?_
    rw [upper]
    decide +kernel
  · intro same
    have texts := congrArg String.toList same
    rw [String.toUpper, String.toList_map] at texts
    revert texts
    decide +kernel

open AccountSample in
/-- An address registered in capitals as well is a second account on one engine
and the same account on the other. -/
theorem repositories_part :
    ¬ ∀ calls, userAnswers .bytewise .empty calls = userAnswers .caseless .empty calls := by
  intro agree
  have registered := @serve_register_free .bytewise .empty (.counted 1) address 0
    fun _ member => (List.not_mem_nil member).elim
  have none : Unlike SqlEngine.caseless AccountTables.empty.users := List.Pairwise.nil
  obtain ⟨-, plain, -⟩ := (repositories_agree SqlEngine.caseless_collates none _).mp
    (agree [.register (some (.counted 1)) address 0, .register (some (.counted 2)) address.toUpper 1])
  rw [registered] at plain
  rcases plain with ⟨row, member, same⟩ | plain
  · rw [show row = AuthenticationService.newUser (.counted 1) address 0 from
      List.mem_singleton.mp member] at same
    have differ : Sixteen.counted 1 ≠ Sixteen.counted 2 := by decide +kernel
    exact differ same
  · obtain ⟨row, member, same⟩ := plain ⟨_, List.mem_singleton_self _, address_toUpper.1⟩
    rw [show row = AuthenticationService.newUser (.counted 1) address 0 from
      List.mem_singleton.mp member] at same
    exact address_toUpper.2 same

end Renvor
