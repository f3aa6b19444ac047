import Renvor.Auth.SessionStages

/-! # What a session statement does to the rows

Statements never delete a row, never change whose it is and never take a
revocation back (`Renvor.SessionSql.run_grows`).
-/

namespace Renvor

open Foundation

/-- Only the activity of the row and its revocation change. -/
structure SessionRow.Evolves (before after : SessionRow) : Prop where
  id : after.id = before.id
  userId : after.userId = before.userId
  tokenHash : after.tokenHash = before.tokenHash
  createdAt : after.createdAt = before.createdAt
  revoked : before.revokedAt.isSome = true → after.revokedAt.isSome = true

theorem SessionRow.Evolves.refl (row : SessionRow) : row.Evolves row :=
  ⟨rfl, rfl, rfl, rfl, fun revoked => revoked⟩

theorem SessionRow.Evolves.trans {first second third : SessionRow} (earlier : first.Evolves second)
    (later : second.Evolves third) : first.Evolves third where
  id := later.id.trans earlier.id
  userId := later.userId.trans earlier.userId
  tokenHash := later.tokenHash.trans earlier.tokenHash
  createdAt := later.createdAt.trans earlier.createdAt
  revoked := later.revoked ∘ earlier.revoked

/-- Sessions have different digests. -/
def SessionRow.Keyed (rows : List SessionRow) : Prop := (rows.map SessionRow.tokenHash).Nodup

/-- Rows are kept, and the new ones are the inserted one. -/
structure SessionRow.Grows (inserted : Option SessionRow) (before after : List SessionRow) :
    Prop where
  kept : ∀ row ∈ before, ∃ later ∈ after, row.Evolves later
  from' : ∀ later ∈ after, (∃ row ∈ before, row.Evolves later) ∨ inserted = some later
  keyed : SessionRow.Keyed before → SessionRow.Keyed after

namespace SessionSql

variable {rows : List SessionRow}

theorem grows_refl (inserted : Option SessionRow) (rows : List SessionRow) :
    SessionRow.Grows inserted rows rows where
  kept row member := ⟨row, member, .refl row⟩
  from' later member := .inl ⟨later, member, .refl later⟩
  keyed := id

/-- An update that only lets rows evolve. -/
theorem update_grows {matched : SessionRow → Bool} {change : SessionRow → SessionRow}
    (evolves : ∀ row : SessionRow, row.Evolves (change row)) (rows : List SessionRow) :
    SessionRow.Grows none rows (runUpdate matched change rows).2 where
  kept := by
    intro row member
    cases hit : matched row with
    | true => exact ⟨change row, mem_updateWhere.mpr (.inl ⟨row, member, hit, rfl⟩), evolves row⟩
    | false => exact ⟨row, mem_updateWhere.mpr (.inr ⟨member, hit⟩), .refl row⟩
  from' := by
    intro later member
    obtain ⟨row, among, _, rfl⟩ | ⟨among, _⟩ := mem_updateWhere.mp member
    · exact .inl ⟨row, among, evolves row⟩
    · exact .inl ⟨later, among, .refl later⟩
  keyed := by
    intro keyed
    show ((updateWhere matched change rows).map SessionRow.tokenHash).Nodup
    rw [map_updateWhere fun row _ => (evolves row).tokenHash]
    exact keyed

/-- The row a statement inserted. -/
def inserted : (statement : SessionSql) → Except DatabaseErrorKind statement.Reply →
    Option SessionRow
  | insert row, .ok _ => some row
  | _, _ => none

/-- An insertion adds its row, or finds its key there. -/
theorem insert_cases (row : SessionRow) (rows : List SessionRow) :
    ((run (.insert row) rows).1 = .ok () ∧ (run (.insert row) rows).2 = rows ++ [row] ∧
      ∀ other ∈ rows, other.tokenHash ≠ row.tokenHash) ∨
    (run (.insert row) rows).1 = .error .uniqueViolation ∧ (run (.insert row) rows).2 = rows := by
  show ((runInsert row rows).1 = _ ∧ (runInsert row rows).2 = _ ∧ _) ∨
    (runInsert row rows).1 = _ ∧ (runInsert row rows).2 = _
  unfold runInsert
  split
  · exact .inr ⟨rfl, rfl⟩
  next absent =>
    refine .inl ⟨rfl, rfl, fun other member same => absent ?_⟩
    refine List.any_eq_true.mpr ⟨other, member, ?_⟩
    rw [Bool.or_eq_true]
    exact .inr (decide_eq_true same)

/-- **What a statement does to the rows.** -/
theorem run_grows (statement : SessionSql) (rows : List SessionRow) :
    SessionRow.Grows (inserted statement (run statement rows).1) rows (run statement rows).2 := by
  cases statement with
  | insert row =>
      obtain ⟨replied, left, absent⟩ | ⟨replied, left⟩ := insert_cases row rows
      · rw [replied, left]
        constructor
        · exact fun other member => ⟨other, List.mem_append_left _ member, .refl other⟩
        · intro later member
          obtain among | same := List.mem_append.mp member
          · exact .inl ⟨later, among, .refl later⟩
          · exact .inr (congrArg some (List.mem_singleton.mp same).symm)
        · intro keyed
          show ((rows ++ [row]).map SessionRow.tokenHash).Nodup
          rw [List.map_append, List.nodup_append]
          refine ⟨keyed, List.nodup_singleton _, ?_⟩
          rintro _ member _ single rfl
          obtain ⟨other, among, same⟩ := List.mem_map.mp member
          exact absent other among (same.trans (List.mem_singleton.mp single))
      · rw [replied, left]
        exact grows_refl _ rows
  | touch digest now idleCutoff absoluteCutoff =>
      apply update_grows
      exact fun row => ⟨rfl, rfl, rfl, rfl, fun revoked => revoked⟩
  | revoke digest now =>
      apply update_grows
      exact fun row => ⟨rfl, rfl, rfl, rfl, fun _ => rfl⟩
  | revokeAll user now =>
      apply update_grows
      exact fun row => ⟨rfl, rfl, rfl, rfl, fun _ => rfl⟩
  | owner digest => exact grows_refl _ rows
  | liveFor user idleCutoff absoluteCutoff => exact grows_refl _ rows

/-- A revocation that found a row unrevoked. -/
theorem revoke_one {digest : SecretDigest} {now : Instant} {affected : Nat}
    (ran : (run (.revoke digest now) rows).1 = .ok affected) (some : affected ≠ 0) :
    ∃ row ∈ rows, row.tokenHash = digest ∧ row.revokedAt = none := by
  obtain rfl : rows.countP (fun row => row.tokenHash = digest && row.revokedAt.isNone) = affected :=
    Except.ok.inj ran
  obtain ⟨row, member, hit⟩ := List.countP_pos_iff.mp (Nat.pos_of_ne_zero some)
  rw [Bool.and_eq_true] at hit
  exact ⟨row, member, of_decide_eq_true hit.1, Option.isNone_iff_eq_none.mp hit.2⟩

/-- The owner that is read is a row's. -/
theorem owner_row {digest : SecretDigest} {user : List Byte} {createdAt lastSeenAt : Instant}
    (ran : (run (.owner digest) rows).1 = .ok (some (user, createdAt, lastSeenAt))) :
    ∃ row ∈ rows, row.tokenHash = digest ∧ row.userId.bytes = user := by
  obtain ⟨row, found, columns⟩ := Option.map_eq_some_iff.mp (Except.ok.inj ran)
  obtain ⟨rfl, _⟩ := Prod.mk.inj columns
  have same : row.tokenHash = digest := by simpa using List.find?_some found
  exact ⟨row, List.mem_of_find?_eq_some found, same, rfl⟩

/-- A sweep leaves no row of the user unrevoked. -/
theorem revokeAll_revoked {user : UserId} {now : Instant} {row : SessionRow}
    (member : row ∈ (run (.revokeAll user now) rows).2) (owned : row.userId = user) :
    row.revokedAt.isSome = true := by
  obtain ⟨before, _, _, rfl⟩ | ⟨_, miss⟩ := mem_updateWhere.mp member
  · rfl
  · rw [decide_eq_true owned, Bool.true_and] at miss
    rw [← Option.not_isNone, miss]
    rfl

/-- A revoked row has been. -/
theorem revoke_revoked {digest : SecretDigest} {now : Instant} {row : SessionRow}
    (member : row ∈ (run (.revoke digest now) rows).2) (same : row.tokenHash = digest) :
    row.revokedAt.isSome = true := by
  obtain ⟨before, _, _, rfl⟩ | ⟨_, miss⟩ := mem_updateWhere.mp member
  · rfl
  · rw [decide_eq_true same, Bool.true_and] at miss
    rw [← Option.not_isNone, miss]
    rfl

end SessionSql

theorem SessionRow.Keyed.eq {rows : List SessionRow} (keyed : SessionRow.Keyed rows)
    {row other : SessionRow} (member : row ∈ rows) (among : other ∈ rows)
    (same : row.tokenHash = other.tokenHash) : row = other :=
  eq_of_key keyed member among same

/-- The session is stored, and revoked. -/
def SessionRow.Revoked (rows : List SessionRow) (digest : SecretDigest) : Prop :=
  ∃ row ∈ rows, row.tokenHash = digest ∧ row.revokedAt.isSome = true

theorem SessionRow.Grows.revoked {inserted : Option SessionRow} {before after : List SessionRow}
    (grows : SessionRow.Grows inserted before after) {digest : SecretDigest}
    (revoked : SessionRow.Revoked before digest) : SessionRow.Revoked after digest := by
  obtain ⟨row, member, same, ended⟩ := revoked
  obtain ⟨later, among, evolves⟩ := grows.kept row member
  exact ⟨later, among, evolves.tokenHash.trans same, evolves.revoked ended⟩

theorem SessionRow.Revoked.row {rows : List SessionRow} {row : SessionRow}
    (revoked : SessionRow.Revoked rows row.tokenHash) (keyed : SessionRow.Keyed rows)
    (member : row ∈ rows) : row.revokedAt.isSome = true := by
  obtain ⟨other, among, same, ended⟩ := revoked
  rw [keyed.eq member among same.symm]
  exact ended

/-- A revoked session is not found unrevoked. -/
theorem SessionRow.Revoked.not_live {rows : List SessionRow} {digest : SecretDigest}
    (revoked : SessionRow.Revoked rows digest) (keyed : SessionRow.Keyed rows) :
    ¬ ∃ row ∈ rows, row.tokenHash = digest ∧ row.revokedAt = none := by
  rintro ⟨row, member, rfl, live⟩
  have ended := revoked.row keyed member
  rw [live] at ended
  cases ended

end Renvor
