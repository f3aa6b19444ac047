import Renvor.Auth.Accounts

/-! # What a registration leaves

A user's row and its credential are written one after the other, each by itself.
Where the second is not written the first stays, and the address is taken by an
account that nobody can log in to (`Renvor.registration_whole`).
-/

namespace Renvor

open Foundation
open Foundation.Interleaving (Script)
open Foundation.Concurrent

namespace AuthenticationService

variable (service : AuthenticationService) (engine : SqlEngine)

/-- The checks of a registration, and the hash it stores. -/
def prepare (admitted : Admitted) (password : String) (salt : Option Sixteen) :
    Except AuthError PasswordHash := do
  admitted.expect .register
  service.acceptPassword password
  service.library.hashPassword password salt

/-- The row a registration inserts. -/
def newUser (id : UserId) (email : String) (now : Instant) : UserRow where
  id := id
  email := email
  emailVerifiedAt := none
  createdAt := now
  updatedAt := now

/-- The credential a registration stores. -/
def newCredential (user : UserId) (hash : PasswordHash) (now : Instant) : CredentialRow where
  userId := user
  passwordHash := hash
  mustChange := false
  updatedAt := now

/-- The writes of a registration. -/
def enroll (drawn : Option Sixteen) (email : String) (hash : PasswordHash) (now : Instant) :
    Accounting ServiceError Registration := do
  match ← stored (SqlxUserRepository.register drawn email now) with
  | .alreadyRegistered => return .alreadyRegistered
  | .created user =>
      stored (SqlxCredentialRepository.upsert user hash false now)
      return .created user

/-- What follows the credential's write. -/
def credited (id : UserId) : Except DatabaseErrorKind Unit → Accounting ServiceError Registration
  | .ok () => .done (.created id)
  | .error kind => .fail (.storage kind)

/-- What follows the user's insert. -/
def registered (id : UserId) (hash : PasswordHash) (now : Instant) :
    Except DatabaseErrorKind Unit → Accounting ServiceError Registration
  | .ok () => .query (.replaceCredential (newCredential id hash now)) (credited id)
  | .error .uniqueViolation => .done .alreadyRegistered
  | .error kind => .fail (.storage kind)

/-- The writes of a registration, one after the other. -/
theorem enroll_eq (id : UserId) (email : String) (hash : PasswordHash) (now : Instant) :
    enroll (some id) email hash now =
      .query (.insertUser (newUser id email now)) (registered id hash now) := by
  show Script.query _ _ = _
  congr 1
  funext reply
  cases reply with
  | error kind => cases kind <;> rfl
  | ok =>
      show Script.query _ _ = Script.query _ _
      congr 1
      funext reply
      cases reply <;> rfl

theorem register_eq (admitted : Admitted) (email password : String) (now : Instant)
    (draws : AccountDraws) : service.register admitted email password now draws =
      checked (service.prepare admitted password draws.salt) >>= fun hash =>
        enroll draws.row email hash now := by
  unfold register prepare
  cases admitted.expect .register with
  | error error => rfl
  | ok =>
      cases service.acceptPassword password with
      | error error => rfl
      | ok =>
          cases service.library.hashPassword password draws.salt <;> rfl

variable (fates : AccountSql → Fate DatabaseErrorKind) (tables : AccountTables)

/-- What the writes leave. -/
theorem enroll_leaves (id : UserId) (email : String) (hash : PasswordHash) (now : Instant) :
    (alone (AccountSql.run engine) fates (enroll (some id) email hash now) tables).2 =
      match fates (.insertUser (newUser id email now)) with
      | .fails _ => tables
      | .lost _ => (AccountSql.run engine (.insertUser (newUser id email now)) tables).2
      | .works =>
          match (AccountSql.run engine (.insertUser (newUser id email now)) tables).1 with
          | .error _ => (AccountSql.run engine (.insertUser (newUser id email now)) tables).2
          | .ok () => match fates (.replaceCredential (newCredential id hash now)) with
              | .fails _ => (AccountSql.run engine (.insertUser (newUser id email now)) tables).2
              | _ => (AccountSql.run engine (.replaceCredential (newCredential id hash now))
                  (AccountSql.run engine (.insertUser (newUser id email now)) tables).2).2 := by
  have told : ∀ (kind : DatabaseErrorKind) (store : AccountTables),
      (alone (AccountSql.run engine) fates (registered id hash now (.error kind)) store).2 =
        store := by
    intro kind store
    cases kind <;> rfl
  rw [enroll_eq, alone_query]
  cases fates (.insertUser (newUser id email now)) with
  | fails fault => exact told fault tables
  | lost fault => exact told fault _
  | works =>
      dsimp only
      generalize AccountSql.run engine (.insertUser (newUser id email now)) tables = ran
      obtain ⟨_ | _, inserted⟩ := ran
      · exact told _ inserted
      · show (alone (AccountSql.run engine) fates (.query
          (.replaceCredential (newCredential id hash now)) (credited id)) inserted).2 = _
        have done : ∀ reply store,
            (alone (AccountSql.run engine) fates (credited id reply) store).2 = store := by
          intro reply store
          cases reply <;> rfl
        rw [alone_query]
        cases fates (.replaceCredential (newCredential id hash now)) <;> exact done _ _

/-- A registration served by itself. -/
def registerAlone (admitted : Admitted) (email password : String) (now : Instant)
    (draws : AccountDraws) : Except ServiceError Registration × AccountTables :=
  alone (AccountSql.run engine) fates (service.register admitted email password now draws) tables

/-- The insert is applied and reported as failed, or the credential's write
fails. -/
def stopped (id : UserId) (email : String) (hash : PasswordHash) (now : Instant) : Prop :=
  (∃ fault, fates (.insertUser (newUser id email now)) = .lost fault) ∨
    fates (.insertUser (newUser id email now)) = .works ∧
      ∃ fault, fates (.replaceCredential (newCredential id hash now)) = .fails fault

/-- The user's row is stored, and its credential is not. -/
structure Strands (admitted : Admitted) (email password : String) (now : Instant)
    (draws : AccountDraws) (id : UserId) (hash : PasswordHash) : Prop where
  drawn : draws.row = some id
  prepared : service.prepare admitted password draws.salt = .ok hash
  free : ∀ row ∈ tables.users, row.id ≠ id ∧ engine.same row.email email = false
  stops : stopped fates id email hash now

end AuthenticationService

/-- A user with its credential was added, or neither was. -/
def AccountTables.Whole (email : String) (before after : AccountTables) : Prop :=
  (after.users = before.users ∧ after.credentials = before.credentials) ∨
    ∃ row, after.users = before.users ++ [row] ∧ row.email = email ∧
      ∃ credential ∈ after.credentials, credential.userId = row.id

/-- Each credential is a user's. -/
def AccountTables.Linked (tables : AccountTables) : Prop :=
  ∀ credential ∈ tables.credentials, AccountSql.known tables credential.userId = true

namespace AuthenticationService

variable {service : AuthenticationService} {engine : SqlEngine}
  {fates : AccountSql → Fate DatabaseErrorKind} {tables : AccountTables}

/-- An insert of a taken address or identifier changes nothing. -/
theorem insertUser_cases (engine : SqlEngine) (tables : AccountTables) (row : UserRow) :
    (∀ other ∈ tables.users, other.id ≠ row.id ∧ engine.same other.email row.email = false) ∧
        AccountSql.run engine (.insertUser row) tables =
          (.ok (), { tables with users := tables.users ++ [row] }) ∨
      (∃ other ∈ tables.users, other.id = row.id ∨ engine.same other.email row.email = true) ∧
        AccountSql.run engine (.insertUser row) tables = (.error .uniqueViolation, tables) := by
  unfold AccountSql.run
  by_cases taken : (tables.users.any fun other =>
      other.id = row.id || engine.same other.email row.email) = true
  · refine .inr ⟨?_, if_pos taken⟩
    obtain ⟨other, member, hit⟩ := List.any_eq_true.mp taken
    exact ⟨other, member, by simpa using hit⟩
  · refine .inl ⟨fun other member => ?_, if_neg taken⟩
    have miss := mt (fun hit => List.any_eq_true.mpr ⟨other, member, hit⟩) taken
    simpa using miss

/-- A credential of a known user is stored. -/
theorem replaceCredential_known (engine : SqlEngine) {row : CredentialRow} (known : AccountSql.known tables row.userId) :
    AccountSql.run engine (.replaceCredential row) tables = (.ok (), { tables with
      credentials := tables.credentials.filter (fun other => other.userId ≠ row.userId) ++
        [row] }) :=
  if_pos known

theorem known_added (tables : AccountTables) (row : UserRow) :
    AccountSql.known { tables with users := tables.users ++ [row] } row.id = true :=
  List.any_eq_true.mpr ⟨row, List.mem_append_right _ (List.mem_singleton_self row),
    decide_eq_true rfl⟩

/-- A user added without its credential is neither both nor neither. -/
theorem not_whole_of_added (linked : tables.Linked) {id : UserId} (email : String) (now : Instant)
    (free : ∀ row ∈ tables.users, row.id ≠ id) :
    ¬ tables.Whole email { tables with users := tables.users ++ [newUser id email now] } := by
  rintro (⟨same, -⟩ | ⟨row, added, -, credential, member, owner⟩)
  · simp at same
  · obtain rfl : newUser id email now = row :=
      List.singleton_inj.mp (List.append_cancel_left added)
    obtain ⟨user, listed, known⟩ := List.any_eq_true.mp (linked credential member)
    exact free user listed ((of_decide_eq_true known).trans owner)

/-- **A registration leaves a user and its credential or neither**, exactly where
the user's insert is not applied and reported as failed, and the credential's
write is applied where the insert was. -/
theorem registration_whole (linked : tables.Linked) (admitted : Admitted) (email password : String)
    (now : Instant) (draws : AccountDraws) :
    tables.Whole email
        (service.registerAlone engine fates tables admitted email password now draws).2 ↔
      ¬ ∃ id hash, service.Strands engine fates tables admitted email password now draws id hash := by
  unfold registerAlone
  rw [register_eq, alone_bind]
  unfold checked
  rw [alone_ofExcept]
  cases prepared : service.prepare admitted password draws.salt with
  | error error =>
      refine iff_of_true (.inl ⟨rfl, rfl⟩) ?_
      rintro ⟨id, hash, strands⟩
      cases prepared.symm.trans strands.prepared
  | ok hash =>
      show tables.Whole email
        (alone (AccountSql.run engine) fates (enroll draws.row email hash now) tables).2 ↔ _
      cases drawn : draws.row with
      | none =>
          refine iff_of_true (.inl ⟨rfl, rfl⟩) ?_
          rintro ⟨id, hash, strands⟩
          cases drawn.symm.trans strands.drawn
      | some id =>
          rw [enroll_leaves]
          have only : (∃ id hash, service.Strands engine fates tables admitted email password now
              draws id hash) ↔ (∀ row ∈ tables.users, row.id ≠ id ∧
                engine.same row.email email = false) ∧ stopped fates id email hash now := by
            constructor
            · rintro ⟨other, held, strands⟩
              obtain rfl : id = other := Option.some.inj (drawn.symm.trans strands.drawn)
              obtain rfl : hash = held := Except.ok.inj (prepared.symm.trans strands.prepared)
              exact ⟨strands.free, strands.stops⟩
            · rintro ⟨free, stops⟩
              exact ⟨id, hash, drawn, prepared, free, stops⟩
          rw [only]
          obtain ⟨free, ran⟩ | ⟨⟨other, member, taken⟩, ran⟩ :=
            insertUser_cases engine tables (newUser id email now)
          · have added := not_whole_of_added linked email now
              fun row member => (free row member).1
            rw [ran]
            cases inserts : fates (.insertUser (newUser id email now)) with
            | fails fault =>
                refine iff_of_true (.inl ⟨rfl, rfl⟩) ?_
                rintro ⟨-, ⟨lost, same⟩ | ⟨works, -⟩⟩
                · cases inserts.symm.trans same
                · cases inserts.symm.trans works
            | lost fault => exact iff_of_false added (not_not.mpr ⟨free, .inl ⟨fault, inserts⟩⟩)
            | works =>
                have credited := replaceCredential_known engine
                  (show AccountSql.known _ (newCredential id hash now).userId = true from
                    known_added tables (newUser id email now))
                have whole : tables.Whole email (AccountSql.run engine
                    (.replaceCredential (newCredential id hash now))
                    { tables with users := tables.users ++ [newUser id email now] }).2 := by
                  rw [credited]
                  exact .inr ⟨_, rfl, rfl, _,
                    List.mem_append_right _ (List.mem_singleton_self _), rfl⟩
                have unstopped : (∀ fault, fates (.replaceCredential (newCredential id hash now)) ≠
                    .fails fault) → ¬ stopped fates id email hash now := by
                  rintro never (⟨lost, same⟩ | ⟨-, fault, fails⟩)
                  · cases inserts.symm.trans same
                  · exact never fault fails
                cases writes : fates (.replaceCredential (newCredential id hash now)) with
                | fails fault =>
                    exact iff_of_false added
                      (not_not.mpr ⟨free, .inr ⟨inserts, fault, writes⟩⟩)
                | works =>
                    refine iff_of_true whole fun both => unstopped ?_ both.2
                    rintro fault same
                    cases writes.symm.trans same
                | lost lost =>
                    refine iff_of_true whole fun both => unstopped ?_ both.2
                    rintro fault same
                    cases writes.symm.trans same
          · have same : tables.Whole email tables := .inl ⟨rfl, rfl⟩
            rw [ran]
            refine iff_of_true ?_ fun both => ?_
            · cases fates (.insertUser (newUser id email now)) <;> exact same
            · obtain clash | clash := taken
              · exact (both.1 other member).1 clash
              · cases clash.symm.trans (both.1 other member).2

end AuthenticationService

namespace AccountSample

/-- Passwords stored as they are. -/
def library : PasswordLibrary where
  normalise := id
  hash password _ := some ⟨password⟩
  verify password hash := password = hash.phc

/-- Digests that keep the first bytes. -/
def digest : Sha256 := fun bytes => ⟨(bytes ++ List.replicate 32 0).take 32, by simp⟩

def service : AuthenticationService where
  library := library
  blocklist _ := false
  policy := .default
  dummy := ⟨""⟩
  hash := digest

def draws (first : Byte) : AccountDraws where
  salt := some (.counted first)
  absent := some (.counted first)
  secret := some ⟨first :: List.replicate 31 0, rfl⟩
  row := some (.counted first)

/-- Every statement works but the credential's write. -/
def uncredited : AccountSql → Fate DatabaseErrorKind
  | .replaceCredential _ => .fails .connectFailed
  | _ => .works

def address : String := "a@b.example"

def password : String := "fifteen letters"

end AccountSample

open AccountSample in
/-- A registration whose statements work leaves both. -/
theorem registration_whole_working : AccountTables.empty.Whole address
    (service.registerAlone .bytewise (fun _ => .works) .empty ⟨.register⟩ address password 0
      (draws 1)).2 := by
  refine (AuthenticationService.registration_whole ?_ _ _ _ _ _).mpr ?_
  · rintro _ ⟨⟩
  · rintro ⟨id, hash, strands⟩
    obtain ⟨fault, lost⟩ | ⟨-, fault, fails⟩ := strands.stops
    · cases lost
    · cases fails

open AccountSample in
/-- A registration whose credential is not written leaves a user without one. -/
theorem registration_strands : ¬ AccountTables.empty.Whole address
    (service.registerAlone .bytewise uncredited .empty ⟨.register⟩ address password 0
      (draws 1)).2 := by
  have left : (service.registerAlone .bytewise uncredited .empty ⟨.register⟩ address password 0
      (draws 1)).2 = { AccountTables.empty with
        users := AccountTables.empty.users ++
          [AuthenticationService.newUser (.counted 1) address 0] } := by
    with_unfolding_all rfl
  rw [left]
  refine AuthenticationService.not_whole_of_added ?_ address 0 ?_
  · rintro _ ⟨⟩
  · rintro _ ⟨⟩

end Renvor
