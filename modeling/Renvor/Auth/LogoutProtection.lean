import Mathlib.Data.Bool.AllAny
import Renvor.Auth.Logout
import Renvor.Auth.SessionOrder

/-! # What a request has to carry to log a session out

A request without an `Authorization` header ends the session of its cookie only
with a token made for that session, and not from another site. One that carries
both is let off every check, and the cookie still says which session ends
(`Renvor.LogoutEndpoints.logout_protected`, `Renvor.LogoutEndpoints.exempt_logout`).
-/

namespace Renvor

open Foundation
open Foundation.Interleaving (Script)
open Foundation.Concurrent (alone alone_catching alone_bind alone_query Fate Event)

/-- The session is stored, and not revoked. -/
def SessionRow.Unrevoked (rows : List SessionRow) (digest : SecretDigest) : Prop :=
  ∃ row ∈ rows, row.tokenHash = digest ∧ row.revokedAt = none

theorem SessionSql.revoke_unrevoked {rows : List SessionRow} {digest : SecretDigest} {now : Instant} :
    ¬ SessionRow.Unrevoked (run (.revoke digest now) rows).2 digest := by
  rintro ⟨row, member, same, live⟩
  have ended := revoke_revoked member same
  rw [live] at ended
  cases ended

/-! ## The headers -/

/-- An origin that is read is one that is kept. -/
theorem EffectiveOrigin.parse_acceptable {text : String} {origin : EffectiveOrigin}
    (read : EffectiveOrigin.parse (trim text) = some origin) :
    FetchMetadata.acceptable text = some (trim text) := by
  unfold EffectiveOrigin.parse at read
  split at read
  next => cases read
  next bounded =>
    split at read
    next => cases read
    next printable =>
      rw [Bool.or_eq_true, not_or, Bool.not_eq_true, decide_eq_true_eq, not_lt] at bounded
      refine if_pos ?_
      simp only [bounded.1, bounded.2, Bool.not_false, decide_true, Bool.and_self, Bool.true_and,
        Bool.not_eq_true']
      rw [Bool.not_eq_true, List.any_eq_false] at printable
      refine List.any_eq_false.mpr fun character member control => printable character member ?_
      rw [Bool.or_eq_true, decide_eq_true_eq, decide_eq_true_eq] at control
      have controls : isControl character = true := by
        unfold isControl
        rw [Bool.or_eq_true, Bool.and_eq_true]
        simp only [decide_eq_true_eq]
        omega
      simp only [controls, Bool.or_true, Bool.true_or]

theorem FetchMetadata.acceptable_some {text origin : String}
    (kept : FetchMetadata.acceptable text = some origin) : origin = trim text := by
  unfold FetchMetadata.acceptable at kept
  dsimp only at kept
  split at kept
  · exact (Option.some.inj kept).symm
  · cases kept

namespace IncomingRequest

variable (incoming : IncomingRequest)

/-- The user agent did not mark the request as cross-site. -/
def NotCrossSite : Prop :=
  (incoming.headers.text "sec-fetch-site").map SecFetchSite.parse ≠ some .crossSite

/-- An `Origin` header, if there is one, is the origin the request was addressed to. -/
def OwnOrigin : Prop :=
  ∀ value, incoming.headers.get "origin" = some value →
    ∃ text, value = some text ∧ EffectiveOrigin.parse (trim text) = some incoming.origin

/-- An `Origin` header, if there is one, is one that is kept. -/
def OriginKept : Prop :=
  incoming.headers.get "origin" = none ∨ incoming.dispatch.fetchMetadata.origin.isSome = true

variable {incoming}

theorem metadata_origin {text : String} (header : incoming.headers.get "origin" = some (some text)) :
    incoming.dispatch.fetchMetadata = {
      origin := FetchMetadata.acceptable text
      effectiveOrigin := (FetchMetadata.acceptable text).bind EffectiveOrigin.parse
      secFetchSite := (incoming.headers.text "sec-fetch-site").map SecFetchSite.parse } := by
  have read : incoming.headers.text "origin" = some text := by
    unfold HeaderMap.text
    rw [header]
    rfl
  show FetchMetadata.new (incoming.headers.text "origin") _ = _
  rw [read, FetchMetadata.new, Option.bind_some]

theorem metadata_absent (header : ∀ text, incoming.headers.get "origin" ≠ some (some text)) :
    incoming.dispatch.fetchMetadata = {
      origin := none
      effectiveOrigin := none
      secFetchSite := (incoming.headers.text "sec-fetch-site").map SecFetchSite.parse } := by
  have none' : incoming.headers.text "origin" = none := by
    unfold HeaderMap.text
    cases found : incoming.headers.get "origin" with
    | none => rfl
    | some value =>
        cases value with
        | none => rfl
        | some text => exact (header text found).elim
  show FetchMetadata.new (incoming.headers.text "origin") _ = _
  rw [none']
  rfl

/-- The comparison of origins, taken apart. -/
theorem crossSite_false (request : Request) : crossSiteRefused request = false ↔
    request.fetchMetadata.secFetchSite ≠ some .crossSite ∧
      (∀ origin, request.fetchMetadata.effectiveOrigin = some origin → origin = request.origin) ∧
      (request.fetchMetadata.effectiveOrigin = none → request.fetchMetadata.origin = none) := by
  unfold crossSiteRefused
  dsimp only
  split
  next marked => simp [marked]
  next unmarked =>
    cases request.fetchMetadata.effectiveOrigin with
    | some origin => simp [unmarked]
    | none => simp [unmarked]

/-- **What the comparison of origins lets pass.** -/
theorem crossSite_iff : crossSiteRefused incoming.dispatch = false ∧ incoming.OriginKept ↔
    incoming.NotCrossSite ∧ incoming.OwnOrigin := by
  rw [crossSite_false]
  unfold NotCrossSite OwnOrigin OriginKept
  by_cases header : ∃ text, incoming.headers.get "origin" = some (some text)
  · obtain ⟨text, header⟩ := header
    rw [metadata_origin header, header]
    constructor
    · rintro ⟨⟨unmarked, own, unread⟩, kept⟩
      refine ⟨unmarked, fun value same => ?_⟩
      cases same
      obtain kept | kept := kept
      · cases kept
      · obtain ⟨origin, kept⟩ := Option.isSome_iff_exists.mp kept
        dsimp only at kept own unread
        rw [kept] at own unread
        obtain rfl := FetchMetadata.acceptable_some kept
        rw [Option.bind_some] at own unread
        cases read : EffectiveOrigin.parse (trim text) with
        | none => cases unread read
        | some found => exact ⟨text, rfl, read.trans (congrArg some (own found read))⟩
    · rintro ⟨unmarked, own⟩
      obtain ⟨_, ⟨⟩, read⟩ := own _ rfl
      rw [EffectiveOrigin.parse_acceptable read, Option.bind_some, read]
      refine ⟨⟨unmarked, ?_, ?_⟩, .inr rfl⟩
      · rintro origin ⟨⟩
        rfl
      · rintro ⟨⟩
  · have absent := fun text found => header ⟨text, found⟩
    rw [metadata_absent absent]
    cases found : incoming.headers.get "origin" with
    | none => simp
    | some value =>
        cases value with
        | none => simp
        | some text => exact (absent text found).elim

end IncomingRequest

namespace LogoutEndpoints

variable (endpoints : LogoutEndpoints)

/-- Tokens that were issued: for a session, with a random value. -/
abbrev Issued := SecretDigest → ThirtyTwo → Prop

/-- The request asks for a hash of a text to be compared with what it carries. -/
def Presents (request : Request) (text : String) (hash : ThirtyTwo) : Prop :=
  ∃ digest body macHex randomHex,
    endpoints.sessions.presentedDigest request.credentials.cookie = some digest ∧
      endpoints.readBody request.body = some body ∧
      splitOnce ['.'] body.csrfToken.toList = some (macHex, randomHex) ∧
      Csrf.unhex (String.ofList macHex) = some hash ∧
      text = Csrf.message (Csrf.hex digest.bytes) (String.ofList randomHex)

/-- A hash the request carries was made in issuing a token. -/
def Unforged (issued : Issued) (request : Request) : Prop :=
  ∀ text hash, endpoints.Presents request text hash → endpoints.mac endpoints.csrf text = hash →
    ∃ session random, issued session random ∧
      text = Csrf.message (Csrf.hex session.bytes) (Csrf.hex random.val)

/-- The call revokes the session with the digest. -/
def Ends (request : Request) (rows : List SessionRow) (digest : SecretDigest) : Prop :=
  SessionRow.Unrevoked rows digest ∧ ∃ fates now,
    ¬ SessionRow.Unrevoked (alone SessionSql.run fates (endpoints.logOut request now) rows).2 digest

/-- A request that may end the session: not from another site, and with a token
issued for that session. -/
structure Protected (issued : Issued) (incoming : IncomingRequest) (digest : SecretDigest) : Prop where
  site : incoming.NotCrossSite
  origin : incoming.OwnOrigin
  token : ∃ body random, endpoints.readBody incoming.body = some body ∧ issued digest random ∧
    body.csrfToken = (Csrf.token endpoints.mac endpoints.csrf digest random).wire

variable {endpoints} {request : Request} {rows : List SessionRow} {digest : SecretDigest}

theorem presentedDigest_some {service : SessionService} {presented : String}
    (known : service.presentedDigest presented = some digest) :
    ∃ secret, service.library.read presented = .ok secret ∧ digest = .of service.hash secret := by
  unfold SessionService.presentedDigest at known
  split at known
  next secret read =>
    cases known
    exact ⟨secret, read, rfl⟩
  next => cases known

/-- **The checks, taken apart.** -/
theorem check_ok (known : endpoints.sessions.presentedDigest request.credentials.cookie = some digest) :
    endpoints.check request = .ok () ↔ crossSiteRefused request = false ∧
      ∃ body random, endpoints.readBody request.body = some body ∧
        body.csrfToken = (Csrf.token endpoints.mac endpoints.csrf digest random).wire := by
  obtain ⟨secret, read, rfl⟩ := presentedDigest_some known
  unfold check
  cases crossSiteRefused request with
  | true => simp
  | false =>
      cases endpoints.readBody request.body with
      | none => simp
      | some body =>
          simp only [read, Bool.false_eq_true, ↓reduceIte]
          have accepts := @Csrf.verify_ok endpoints.mac endpoints.csrf
            (.of endpoints.sessions.hash secret) [body.csrfToken]
          cases verified : Csrf.verify endpoints.mac endpoints.csrf
              (.of endpoints.sessions.hash secret) [body.csrfToken] with
          | error rejection =>
              rw [verified] at accepts
              simpa using accepts
          | ok =>
              rw [verified] at accepts
              simpa using accepts

/-- A token is asked of the requests without an `Authorization` header. -/
theorem required_iff (request : Request) : Csrf.isRequired "POST" (credential request) =
    request.credentials.authorization.isEmpty := by
  unfold credential
  cases request.credentials.authorization.isEmpty <;> rfl

/-- A call that its checks refuse leaves the sessions. -/
theorem logOut_refused {fates : SessionSql → Fate DatabaseErrorKind} {now : Instant}
    (cookie : request.credentials.authorization.isEmpty = true)
    (refused : endpoints.check request ≠ .ok ()) :
    (alone SessionSql.run fates (endpoints.logOut request now) rows).2 = rows := by
  unfold logOut
  rw [required_iff, cookie, if_pos rfl]
  cases checked : endpoints.check request with
  | error response => rfl
  | ok => exact (refused checked).elim

/-- A call that is let through runs one statement. -/
theorem logOut_passed {fates : SessionSql → Fate DatabaseErrorKind} {now : Instant}
    (passes : request.credentials.authorization.isEmpty = false ∨ endpoints.check request = .ok ())
    (known : endpoints.sessions.presentedDigest request.credentials.cookie = some digest)
    (works : fates (.revoke digest now) = .works) :
    (alone SessionSql.run fates (endpoints.logOut request now) rows).2 =
      (SessionSql.run (.revoke digest now) rows).2 := by
  obtain ⟨answered, passed, kept⟩ : ∃ answered, endpoints.logOut request now =
      (endpoints.sessions.logOut request.credentials.cookie now).catching answered ∧
        ∀ reply rows, (alone SessionSql.run fates (answered reply) rows).2 = rows := by
    unfold logOut
    rw [required_iff]
    obtain bearer | checked := passes
    · rw [bearer]
      exact ⟨_, rfl, fun reply rows => by cases reply <;> rfl⟩
    · rw [checked, ite_self]
      exact ⟨_, rfl, fun reply rows => by cases reply <;> rfl⟩
  obtain ⟨next, retires, still⟩ : ∃ next,
      endpoints.sessions.logOut request.credentials.cookie now = .query (.revoke digest now) next ∧
        ∀ reply rows, (alone SessionSql.run fates (next reply) rows).2 = rows := by
    unfold SessionService.logOut SessionService.retire
    rw [known]
    exact ⟨_, rfl, fun reply rows => by cases reply <;> rfl⟩
  rw [passed, alone_catching, kept, retires, alone_query, works]
  exact still _ _

/-- A call that is let through revokes the session its cookie names, and one that
is not leaves the sessions. -/
theorem ends_iff (known : endpoints.sessions.presentedDigest request.credentials.cookie = some digest) :
    endpoints.Ends request rows digest ↔ SessionRow.Unrevoked rows digest ∧
      (request.credentials.authorization.isEmpty = false ∨ endpoints.check request = .ok ()) := by
  constructor
  · rintro ⟨live, fates, now, ended⟩
    refine ⟨live, ?_⟩
    by_contra stopped
    rw [not_or, Bool.not_eq_false] at stopped
    rw [logOut_refused stopped.1 stopped.2] at ended
    exact ended live
  · rintro ⟨live, passes⟩
    refine ⟨live, fun _ => .works, 0, ?_⟩
    rw [logOut_passed passes known rfl]
    exact SessionSql.revoke_unrevoked

/-- **The requests that pass the checks carry what they should.** -/
theorem Protected.of_checked {issued : Issued} {incoming : IncomingRequest}
    (known : endpoints.sessions.presentedDigest incoming.dispatch.credentials.cookie = some digest)
    (unforged : endpoints.Unforged issued incoming.dispatch)
    (checked : endpoints.check incoming.dispatch = .ok ()) (kept : incoming.OriginKept) :
    endpoints.Protected issued incoming digest := by
  obtain ⟨same, body, random, read, carried⟩ := (check_ok known).mp checked
  obtain ⟨site, origin⟩ := IncomingRequest.crossSite_iff.mp ⟨same, kept⟩
  refine ⟨site, origin, body, random, read, ?_, carried⟩
  have presents : endpoints.Presents incoming.dispatch
      (Csrf.message (Csrf.hex digest.bytes) (Csrf.hex random.val))
      (Csrf.sign endpoints.mac endpoints.csrf digest random) := by
    have halves := @Csrf.splitOnce_token endpoints.mac endpoints.csrf digest random
    rw [← carried] at halves
    refine ⟨digest, body, _, _, known, read, halves, ?_, ?_⟩
    · rw [String.ofList_toList, Csrf.unhex_hex]
    · rw [String.ofList_toList]
  obtain ⟨session, another, made, text⟩ := unforged _ _ presents rfl
  obtain ⟨rfl, rfl⟩ := Csrf.message_digest text
  exact made

theorem Protected.checked {issued : Issued} {incoming : IncomingRequest}
    (known : endpoints.sessions.presentedDigest incoming.dispatch.credentials.cookie = some digest)
    (protects : endpoints.Protected issued incoming digest) :
    endpoints.check incoming.dispatch = .ok () ∧ incoming.OriginKept := by
  obtain ⟨body, random, read, _, carried⟩ := protects.token
  obtain ⟨same, kept⟩ := IncomingRequest.crossSite_iff.mpr ⟨protects.site, protects.origin⟩
  exact ⟨(check_ok known).mpr ⟨same, body, random, read, carried⟩, kept⟩

variable (endpoints) in
/-- The request is held to its checks or would pass them, and where it passes them
its `Origin` is one that is kept; or its cookie names no session to end. -/
def Held (incoming : IncomingRequest) (rows : List SessionRow) : Prop :=
  ∀ digest, endpoints.sessions.presentedDigest incoming.dispatch.credentials.cookie = some digest →
    SessionRow.Unrevoked rows digest →
    (incoming.dispatch.credentials.authorization.isEmpty = true ∨
      endpoints.check incoming.dispatch = .ok ()) ∧
      (endpoints.check incoming.dispatch = .ok () → incoming.OriginKept)

/-- **A call ends a session only for a request that may end it, exactly where the
request is held to its checks. A token of one session is accepted for no other,
nor for what rotations made of its session, which is over.** -/
theorem logout_protected (endpoints : LogoutEndpoints)
    (separates : Csrf.Separates endpoints.mac endpoints.csrf) :
    (∀ issued incoming rows, endpoints.Unforged issued incoming.dispatch →
      ((∀ digest,
          endpoints.sessions.presentedDigest incoming.dispatch.credentials.cookie = some digest →
          endpoints.Ends incoming.dispatch rows digest →
          endpoints.Protected issued incoming digest) ↔ endpoints.Held incoming rows)) ∧
    (∀ session other random, Csrf.verify endpoints.mac endpoints.csrf other
        [(Csrf.token endpoints.mac endpoints.csrf session random).wire] = .ok () →
      other = session) ∧
    ∀ (Thread : Type) [DecidableEq Thread] (first last : SessionWorld Thread) events,
      endpoints.sessions.calls.system.Initial first →
      endpoints.sessions.calls.system.Run first events last → ∀ old new,
      Relation.TransGen
        (fun old new => ∃ event ∈ events, endpoints.sessions.Replaced old new event) old new →
      SessionRow.Revoked last.store old ∧ ∀ random, Csrf.verify endpoints.mac endpoints.csrf new
        [(Csrf.token endpoints.mac endpoints.csrf old random).wire] ≠ .ok () := by
  refine ⟨?_, fun _ _ _ => Csrf.verify_session separates, ?_⟩
  · intro issued incoming rows unforged
    constructor
    · intro guarded digest known live
      constructor
      · by_cases cookie : incoming.dispatch.credentials.authorization.isEmpty = true
        · exact .inl cookie
        · have ends := (ends_iff known).mpr ⟨live, .inl (Bool.eq_false_iff.mpr cookie)⟩
          exact .inr ((guarded digest known ends).checked known).1
      · intro checked
        have ends := (ends_iff known).mpr ⟨live, .inr checked⟩
        exact ((guarded digest known ends).checked known).2
    · intro held digest known ends
      obtain ⟨live, passes⟩ := (ends_iff known).mp ends
      obtain ⟨checks, kept⟩ := held digest known live
      have checked : endpoints.check incoming.dispatch = .ok () := by
        obtain bearer | checked := passes
        · obtain cookie | checked := checks
          · cases bearer.symm.trans cookie
          · exact checked
        · exact checked
      exact .of_checked known unforged checked (kept checked)
  · intro Thread _ first last events initial run old new rotated
    obtain ⟨different, ended⟩ := SessionService.rotated_anew initial run rotated
    exact ⟨ended, fun random accepted => different (Csrf.verify_session separates accepted).symm⟩

/-- A request with an issued token of its session carries no forged hash. -/
theorem unforged_of_issued {issued : Issued} {body : LogoutRequest} {random : ThirtyTwo}
    (known : endpoints.sessions.presentedDigest request.credentials.cookie = some digest)
    (read : endpoints.readBody request.body = some body)
    (carried : body.csrfToken = (Csrf.token endpoints.mac endpoints.csrf digest random).wire)
    (made : issued digest random) : endpoints.Unforged issued request := by
  rintro text hash ⟨other, same, macHex, randomHex, presented, found, halves, _, rfl⟩ _
  cases known.symm.trans presented
  cases read.symm.trans found
  rw [carried, Csrf.splitOnce_token] at halves
  obtain ⟨_, rfl⟩ := Prod.mk.inj (Option.some.inj halves)
  exact ⟨digest, random, made, by rw [String.ofList_toList]⟩

end LogoutEndpoints

/-! ## A request with both credentials -/

namespace LogoutSample

open SessionSample (service ones twos)

/-- A hash that keeps what comes after the first three characters. -/
def mac : Mac := fun _ text =>
  (Csrf.unhex (String.ofList ((text.toList.drop 3).take 64))).getD ⟨List.replicate 32 0, rfl⟩

def zeros : ThirtyTwo := ⟨List.replicate 32 0, rfl⟩

def opening : List Char := "\x7b\"csrf_token\":\"".toList

/-- A document with the one member. -/
def document (token : String) : List Byte :=
  (opening ++ token.toList ++ "\"\x7d".toList).map fun character => Fin.ofNat 256 character.toNat

def readBody (body : List Byte) : Option LogoutRequest :=
  let text := body.map fun byte => Char.ofNat byte.val
  if text.take opening.length = opening then
    some ⟨String.ofList ((text.drop opening.length).dropLast.dropLast)⟩
  else none

def endpoints : LogoutEndpoints := ⟨service, ⟨zeros⟩, mac, readBody⟩

theorem length_requestId : (List.replicate 8 (0 : Byte)).length = 8 := rfl

def incoming (headers : HeaderMap) (body : List Byte) : IncomingRequest where
  requestId := ⟨List.replicate 8 0, length_requestId⟩
  origin := ⟨.https, "app.example", Scheme.https.defaultPort⟩
  client := .directPeer (.v4 ⟨[192, 0, 2, 1], rfl⟩)
  body := body
  headers := ("cookie", some SessionSample.presented) :: headers

def rows : List SessionRow := [SessionSample.row 1 ones]

/-- The sample hash gives the session back. -/
theorem mac_message (session : SecretDigest) (random : ThirtyTwo) :
    endpoints.mac endpoints.csrf (Csrf.message (Csrf.hex session.bytes) (Csrf.hex random.val)) =
      ⟨session.bytes, session.width⟩ := by
  have width : (Csrf.hex session.bytes).toList.length = 64 := by
    rw [Csrf.length_hex, session.width]
  have kept : ((Csrf.message (Csrf.hex session.bytes) (Csrf.hex random.val)).toList.drop 3).take 64 =
      (Csrf.hex session.bytes).toList := by
    unfold Csrf.message
    rw [Csrf.hex_utf8ByteSize, session.width]
    simp only [String.toList_append, List.append_assoc]
    show List.take 64 ((Csrf.hex session.bytes).toList ++ _) = _
    rw [← width, List.take_left']
    rfl
  have sample : endpoints.mac = mac := rfl
  rw [sample]
  unfold mac
  rw [kept, String.ofList_toList, Csrf.unhex_hex ⟨session.bytes, session.width⟩, Option.getD_some]

theorem separates : Csrf.Separates endpoints.mac endpoints.csrf := by
  rintro random _ ⟨session, rfl⟩ _ ⟨other, rfl⟩ same
  dsimp only at same
  rw [mac_message, mac_message] at same
  have bytes : session.bytes = other.bytes := congrArg Subtype.val same
  dsimp only
  rw [bytes]

theorem live : SessionRow.Unrevoked rows ones := ⟨_, List.mem_singleton_self _, rfl, rfl⟩

/-- The token of the first session. -/
def token : CsrfToken := Csrf.token endpoints.mac endpoints.csrf ones zeros

theorem narrow_hex (bytes : List Byte) : ∀ character ∈ (Csrf.hex bytes).toList,
    character.toNat < 256 := by
  intro character member
  rw [Csrf.toList_hex] at member
  obtain ⟨byte, _, digit⟩ := List.mem_flatMap.mp member
  have narrow : ∀ nibble, (hexDigit nibble).toNat < 256 := by decide
  simp only [Byte.hex, List.mem_cons, List.not_mem_nil, or_false] at digit
  obtain rfl | rfl := digit
  · exact narrow _
  · exact narrow _

theorem narrow_token : ∀ character ∈ token.wire.toList, character.toNat < 256 := by
  intro character member
  rw [token, Csrf.token, String.toList_append, String.toList_append, List.mem_append,
    List.mem_append] at member
  obtain (signed | dot) | random := member
  · exact narrow_hex _ character signed
  · rw [List.mem_singleton.mp (show character ∈ ['.'] from dot)]
    decide
  · exact narrow_hex _ character random

theorem readBody_document {text : String}
    (narrow : ∀ character ∈ text.toList, character.toNat < 256) :
    readBody (document text) = some ⟨text⟩ := by
  have back : ∀ characters : List Char, (∀ character ∈ characters, character.toNat < 256) →
      ((characters.map fun character => (Fin.ofNat 256 character.toNat : Byte)).map
        fun byte => Char.ofNat byte.val) = characters := by
    intro characters narrow
    rw [List.map_map]
    refine (List.map_congr_left fun character member => ?_).trans (List.map_id _)
    show Char.ofNat (character.toNat % 256) = character
    rw [Nat.mod_eq_of_lt (narrow character member), Char.ofNat_toNat]
  have whole : (document text).map (fun byte => Char.ofNat byte.val) =
      opening ++ (text.toList ++ ['"', '\x7d']) := by
    have around : ∀ character ∈ opening ++ ['"', '\x7d'], character.toNat < 256 :=
      List.all_iff_forall_prop.mp rfl
    refine (congrArg _ (congrArg _ (List.append_assoc ..))).trans (back _ fun character member => ?_)
    rw [List.mem_append, List.mem_append] at member
    obtain front | middle | last := member
    · exact around character (List.mem_append_left _ front)
    · exact narrow character middle
    · exact around character (List.mem_append_right _ last)
  have ends : (text.toList ++ ['"', '\x7d']).dropLast.dropLast = text.toList := by
    rw [show text.toList ++ ['"', '\x7d'] = text.toList ++ ['"'] ++ ['\x7d'] by
      rw [List.append_assoc]; rfl, List.dropLast_concat, List.dropLast_concat]
  rw [readBody, whole, List.take_left', List.drop_left', if_pos rfl, ends, String.ofList_toList]
  · rfl
  · rfl

theorem readBody_token : readBody (document token.wire) = some ⟨token.wire⟩ :=
  readBody_document narrow_token

end LogoutSample

namespace LogoutEndpoints

open LogoutSample

/-- A request with the issued token, and no other credential, is held to its checks. -/
theorem logout_protected_token :
    endpoints.Protected (fun session random => session = SessionSample.ones ∧ random = zeros)
      (incoming [] (document token.wire)) SessionSample.ones := by
  have known : endpoints.sessions.presentedDigest
      (incoming [] (document token.wire)).dispatch.credentials.cookie = some SessionSample.ones :=
    SessionSample.presentedDigest_presented
  have checked : endpoints.check (incoming [] (document token.wire)).dispatch = .ok () :=
    (check_ok known).mpr ⟨rfl, _, zeros, readBody_token, rfl⟩
  have unforged : endpoints.Unforged
      (fun session random => session = SessionSample.ones ∧ random = zeros)
      (incoming [] (document token.wire)).dispatch :=
    unforged_of_issued known readBody_token rfl ⟨rfl, rfl⟩
  refine ((logout_protected endpoints separates).1 _ _ rows unforged).mpr ?_ _ known ?_
  · exact fun _ _ _ => ⟨.inl rfl, fun _ => .inl rfl⟩
  · exact (ends_iff known).mpr ⟨live, .inr checked⟩

/-- A request from another site, with a bearer credential of any kind beside the
cookie and no token at all, ends the session of the cookie. -/
theorem exempt_logout : ¬ ∀ (endpoints : LogoutEndpoints) (issued : Issued)
    (incoming : IncomingRequest) (rows : List SessionRow),
    Csrf.Separates endpoints.mac endpoints.csrf → endpoints.Unforged issued incoming.dispatch →
    ∀ digest, endpoints.sessions.presentedDigest incoming.dispatch.credentials.cookie = some digest →
      endpoints.Ends incoming.dispatch rows digest → endpoints.Protected issued incoming digest := by
  intro guards
  let request := incoming [("authorization", some "Bearer none"), ("sec-fetch-site", some "cross-site")] []
  have known : endpoints.sessions.presentedDigest request.dispatch.credentials.cookie =
      some SessionSample.ones := SessionSample.presentedDigest_presented
  have unread : endpoints.readBody request.dispatch.body = none := rfl
  have unforged : endpoints.Unforged (fun _ _ => False) request.dispatch := by
    rintro _ _ ⟨_, _, _, _, _, found, _⟩
    cases unread.symm.trans found
  have bearer : request.dispatch.credentials.authorization.isEmpty = false := by decide +kernel
  have ends := (ends_iff known).mpr ⟨live, .inl bearer⟩
  obtain ⟨_, _, read, _⟩ := (guards endpoints _ request rows separates unforged _ known ends).token
  cases unread.symm.trans read

end LogoutEndpoints

end Renvor
