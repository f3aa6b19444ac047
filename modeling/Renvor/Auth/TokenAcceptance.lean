import Renvor.Auth.TokenVerify

/-! # Which tokens are accepted

A token is accepted on the grounds of `Renvor.Token.Grounds` and no others, and one
that was issued is accepted for as long as it says.
-/

namespace Renvor.Token

variable {Private Public : Type} {jws : Jws Private Public} {verifier : AccessTokenVerifier Public}
  {valid : Public → String → Prop} {payload : String → Option AccessClaims}
  {pair : Private → Public → Prop} {presented : String} {now : Instant}

/-! ## Keys and identifiers -/

/-- A ring finds the key that has the name asked for. -/
theorem KeyRing.get_eq_some {ring : KeyRing Public} {kid : String} {key : VerifyingKey Public} :
    ring.get kid = some key ↔ key ∈ ring.keys ∧ key.id.text = kid := by
  constructor
  · intro found
    unfold get at found
    exact ⟨List.mem_of_find?_eq_some found, by simpa using List.find?_some found⟩
  · rintro ⟨held, named⟩
    cases found : ring.get kid with
    | none => exact absurd (decide_eq_true named) (List.find?_eq_none.mp found key held)
    | some other =>
        unfold get at found
        have there := List.mem_of_find?_eq_some found
        have same : other.id.text = kid := by simpa using List.find?_some found
        have ids : other.id = key.id := by
          cases one : other.id
          cases two : key.id
          rw [one] at same
          rw [two] at named
          cases same
          cases named
          rfl
        rw [List.inj_on_of_nodup_map ring.distinct there held ids]

/-- An identifier is read from the wire exactly where the text is one. -/
theorem JwtId.fromWire_ok {value : String} {id : JwtId} :
    JwtId.fromWire value = .ok id ↔ value = id.text := by
  unfold fromWire
  constructor
  · intro read
    split at read
    · cases read
      rfl
    · cases read
  · rintro rfl
    rw [dif_pos id.acceptable]

/-- **A user is read from the digits the user is rendered as, and from no others.** -/
theorem parseUserId_eq_some {rendered : String} {user : UserId} :
    parseUserId rendered = some user ↔ rendered = user.hex := by
  unfold parseUserId
  constructor
  · intro read
    split at read
    · cases read
    next size =>
      obtain ⟨bytes, digits, read⟩ := Option.bind_eq_some_iff.mp read
      split at read
      next width =>
        cases read
        have short : rendered.toList.length ≤ 32 := by
          have := length_le_utf8ByteSize rendered.toList
          rw [String.ofList_toList] at this
          omega
        have count := hexBytes_length digits
        rcases Nat.lt_or_ge rendered.toList.length 32 with less | _
        · omega
        · have text := hexBytes_some digits (by omega)
          rw [Sixteen.hex, ← text, String.ofList_toList]
      next => cases read
  · rintro rfl
    have size : user.hex.utf8ByteSize = 32 := by
      rw [Sixteen.hex, hex_utf8Len, user.width]
    rw [if_neg (fun differ => differ size), Sixteen.hex, String.toList_ofList, hexBytes_hex]
    simp [user.width]

/-- The hexadecimal text of an identifier will do for the identifier of a token. -/
theorem validJwtId_hex (identifier : Sixteen) : validJwtId identifier.hex = true := by
  have size : identifier.hex.utf8ByteSize = 32 := by
    rw [Sixteen.hex, hex_utf8Len, identifier.width]
  have digit : ∀ nibble : Fin 16, (('0' ≤ hexDigit nibble && hexDigit nibble ≤ '9') ||
      ('a' ≤ hexDigit nibble && hexDigit nibble ≤ 'f')) = true := by decide
  unfold validJwtId
  rw [size, Bool.and_eq_true]
  refine ⟨by decide, List.all_eq_true.mpr fun character held => ?_⟩
  rw [Sixteen.hex, String.toList_ofList] at held
  obtain ⟨byte, _, held⟩ := List.mem_flatMap.mp held
  simp only [Byte.hex, List.mem_cons, List.not_mem_nil, or_false] at held
  rcases held with rfl | rfl
  · simpa only [Bool.and_eq_true, Bool.or_eq_true, decide_eq_true_eq] using digit _
  · simpa only [Bool.and_eq_true, Bool.or_eq_true, decide_eq_true_eq] using digit _

/-! ## Grounds -/

variable (jws verifier valid payload presented now) in
/-- A token of a key, an issuer and an audience that are expected, at its time. -/
structure Expected (header : Header) (key : VerifyingKey Public) (claims : AccessClaims)
    (subject : UserId) (scopes : ScopeSet) : Prop where
  shown : jws.decodeHeader presented = some header
  typ : header.typ = some accessTokenTyp
  held : key ∈ verifier.ring.keys
  kid : header.kid = some key.id.text
  algorithm : header.alg = key.algorithm.backend
  jku : header.jku = none
  x5u : header.x5u = none
  jwk : header.jwk = none
  crit : header.crit = none
  signature : valid key.inner presented
  read : payload presented = some claims
  issuer : claims.iss = verifier.issuer
  audience : ∃ audience ∈ claims.aud, audience ∈ verifier.audiences
  unexpired : now ≤ claims.exp * 1000000 + verifier.skew.duration
  begun : claims.iat * 1000000 ≤ now + verifier.skew.duration
  subject : claims.sub = subject.hex
  scopes : ScopeSet.parseClaim claims.scope = .ok scopes

variable (jws verifier valid payload presented now) in
/-- On what a token is accepted: its identifier is one, its expiry is not negative, and the
calendar has its times. -/
structure Grounds (header : Header) (key : VerifyingKey Public) (claims : AccessClaims)
    (token : VerifiedToken) : Prop extends
    Expected jws verifier valid payload presented now header key claims token.subject token.scopes where
  counted : 0 ≤ claims.exp
  expiry : representable (claims.exp * 1000000)
  issuance : representable (claims.iat * 1000000)
  id : claims.jti = token.id.text
  expiresAt : token.expiresAt = claims.exp * 1000000

variable (jws verifier valid payload presented now) in

/-- What makes a token one that the verifier accepts. -/
def Accepted (token : VerifiedToken) : Prop :=
  ∃ header key claims, Grounds jws verifier valid payload presented now header key claims token

/-- A key is selected exactly where the header names it, its algorithm and nothing that could
bring in another. -/
theorem select_ok {header : Header} {key : VerifyingKey Public} :
    verifier.select header = .ok key ↔
      header.typ = some accessTokenTyp ∧ (header.jku = none ∧ header.x5u = none ∧ header.jwk = none) ∧
        header.crit = none ∧ key ∈ verifier.ring.keys ∧ header.kid = some key.id.text ∧
          header.alg = key.algorithm.backend := by
  unfold AccessTokenVerifier.select
  constructor
  · intro selected
    split at selected
    · cases selected
    next typ =>
    split at selected
    · cases selected
    next remote =>
    split at selected
    · cases selected
    next critical =>
    split at selected
    · cases selected
    next kid named =>
    split at selected
    · cases selected
    next found chosen =>
    split at selected
    · cases selected
    next algorithm =>
    cases selected
    obtain ⟨held, same⟩ := KeyRing.get_eq_some.mp chosen
    simp only [Bool.or_eq_true, Option.isSome_iff_ne_none, not_or, not_not] at remote critical
    exact ⟨not_not.mp typ, ⟨remote.1.1, remote.1.2, remote.2⟩, critical, held,
      by rw [named, same], not_not.mp algorithm⟩
  · rintro ⟨typ, ⟨jku, x5u, jwk⟩, crit, held, named, algorithm⟩
    have chosen : verifier.ring.get key.id.text = some key := KeyRing.get_eq_some.mpr ⟨held, rfl⟩
    simp [typ, jku, x5u, jwk, crit, named, chosen, algorithm]

/-- A claim that has to be there is one of those that the token library knows. -/
theorem validation_named (key : VerifyingKey Public) :
    ∀ name ∈ (verifier.validation key).requiredSpecClaims, name ∈ claimNames := by
  change ∀ name ∈ ["iss", "aud", "sub", "exp", "iat", "jti"], name ∈ claimNames
  decide

/-- A token is addressed to the verifier where it is signed with the selected key, and issued by
and for those expected. -/
theorem addressed_ok (documented : jws.Documented valid payload pair) {claims : AccessClaims} :
    verifier.addressed jws presented = .ok claims ↔
      ∃ header key, jws.decodeHeader presented = some header ∧ verifier.select header = .ok key ∧
        valid key.inner presented ∧ payload presented = some claims ∧ 0 ≤ claims.exp ∧
          claims.iss = verifier.issuer ∧
            ∃ audience ∈ claims.aud, audience ∈ verifier.audiences := by
  constructor
  · intro done
    cases read : verifier.decoded jws presented with
    | error rejection =>
        unfold AccessTokenVerifier.addressed at done
        rw [read] at done
        cases done
    | ok found =>
        unfold AccessTokenVerifier.addressed at done
        rw [read] at done
        simp only [bind, Except.bind] at done
        split at done
        · cases done
        split at done
        · cases done
        cases done
        unfold AccessTokenVerifier.decoded at read
        split at read
        · cases read
        next header shown =>
        split at read
        · cases read
        next key selected =>
        split at read
        · cases read
        next told decoded =>
        cases read
        have facts := (documented.decodes presented key.inner (verifier.validation key) header _
          shown rfl rfl (validation_named key)).mp decoded
        have required : "exp" ∈ (verifier.validation key).requiredSpecClaims := by
          change "exp" ∈ ["iss", "aud", "sub", "exp", "iat", "jti"]
          decide
        exact ⟨header, key, shown, selected, facts.2.1, facts.2.2.1, facts.2.2.2.1 required,
          List.mem_singleton.mp facts.2.2.2.2.1, facts.2.2.2.2.2⟩
  · rintro ⟨header, key, shown, selected, signed, read, counted, issuer, audience, heard, allowed⟩
    have algorithm : header.alg ∈ (verifier.validation key).algorithms :=
      List.mem_singleton.mpr (select_ok.mp selected).2.2.2.2.2
    have decoded := (documented.decodes presented key.inner (verifier.validation key) header claims
      shown rfl rfl (validation_named key)).mpr
        ⟨algorithm, signed, read, fun _ => counted, List.mem_singleton.mpr issuer, audience, heard,
          allowed⟩
    have someone : (claims.aud.any fun value => verifier.audiences.any fun allowed =>
        allowed = value) = true :=
      List.any_eq_true.mpr ⟨audience, heard, List.any_eq_true.mpr
        ⟨audience, allowed, decide_eq_true rfl⟩⟩
    unfold AccessTokenVerifier.addressed AccessTokenVerifier.decoded
    simp only [shown, selected, decoded, bind, Except.bind, issuer, someone, ne_eq,
      not_true_eq_false, ↓reduceIte, Bool.not_true, Bool.false_eq_true]

/-- The claims that remain are read exactly where they are the texts of their values. -/
theorem remaining_ok {claims : AccessClaims} {expiresAt : Instant} {token : VerifiedToken} :
    AccessTokenVerifier.remaining claims expiresAt = .ok token ↔
      claims.sub = token.subject.hex ∧ claims.jti = token.id.text ∧
        ScopeSet.parseClaim claims.scope = .ok token.scopes ∧ token.expiresAt = expiresAt := by
  unfold AccessTokenVerifier.remaining
  constructor
  · intro done
    split at done
    · cases done
    next subject user =>
    split at done
    · cases done
    next id identified =>
    split at done
    · cases done
    next scopes parsed =>
    cases done
    exact ⟨parseUserId_eq_some.mp user, JwtId.fromWire_ok.mp identified, parsed, rfl⟩
  · rintro ⟨subject, id, scopes, rfl⟩
    rw [parseUserId_eq_some.mpr subject, JwtId.fromWire_ok.mpr id, scopes]

/-- An instant is made of seconds where the calendar has it. -/
theorem fromTimestamp_eq_some {seconds : Int} {instant : Instant} :
    fromTimestamp seconds = some instant ↔
      representable (seconds * 1000000) ∧ seconds * 1000000 = instant := by
  unfold fromTimestamp
  split <;> simp_all

/-- A later instant is there where the calendar has it. -/
theorem later_eq_some {instant after : Instant} {duration : Duration} :
    later instant duration = some after ↔
      representable (instant + duration) ∧ instant + duration = after := by
  unfold later
  split <;> simp_all

/-- The times of claims are right, and their sums come back. -/
theorem timely_ok {claims : AccessClaims} {token : VerifiedToken} :
    verifier.timely claims now = some (.ok token) ↔
      (representable (claims.exp * 1000000) ∧ representable (claims.iat * 1000000) ∧
        now ≤ claims.exp * 1000000 + verifier.skew.duration ∧
        claims.iat * 1000000 ≤ now + verifier.skew.duration ∧
        AccessTokenVerifier.remaining claims (claims.exp * 1000000) = .ok token) ∧
      representable (claims.exp * 1000000 + verifier.skew.duration) ∧
        representable (now + verifier.skew.duration) := by
  unfold AccessTokenVerifier.timely
  constructor
  · intro done
    split at done
    · cases done
    next expiresAt ends =>
    split at done
    · cases done
    next issuedAt starts =>
    obtain ⟨limit, added, running⟩ := Option.bind_eq_some_iff.mp done
    split at running
    · cases running
    next unexpired =>
    obtain ⟨horizon, added', told⟩ := Option.bind_eq_some_iff.mp running
    split at told
    · cases told
    next begun =>
    obtain ⟨expiry, rfl⟩ := fromTimestamp_eq_some.mp ends
    obtain ⟨issuance, rfl⟩ := fromTimestamp_eq_some.mp starts
    obtain ⟨sum, rfl⟩ := later_eq_some.mp added
    obtain ⟨sum', rfl⟩ := later_eq_some.mp added'
    exact ⟨⟨expiry, issuance, not_lt.mp unexpired, not_lt.mp begun, Option.some.inj told⟩, sum, sum'⟩
  · rintro ⟨⟨expiry, issuance, unexpired, begun, rest⟩, sum, sum'⟩
    rw [fromTimestamp_eq_some.mpr ⟨expiry, rfl⟩, fromTimestamp_eq_some.mpr ⟨issuance, rfl⟩]
    simp only [later_eq_some.mpr ⟨sum, rfl⟩, later_eq_some.mpr ⟨sum', rfl⟩, Option.bind_eq_bind,
      Option.bind_some]
    rw [if_neg (not_lt.mpr unexpired), if_neg (not_lt.mpr begun), rest]

/-- **What is verified is accepted, and sums of times come back.** -/
theorem verify_ok (documented : jws.Documented valid payload pair) {token : VerifiedToken} :
    verifier.verify jws presented now = some (.ok token) ↔
      Accepted jws verifier valid payload presented now token ∧
        representable (token.expiresAt + verifier.skew.duration) ∧
          representable (now + verifier.skew.duration) := by
  unfold AccessTokenVerifier.verify
  constructor
  · intro done
    split at done
    · cases done
    next claims addressed =>
    obtain ⟨header, key, shown, selected, signed, read, counted, issuer, audience⟩ :=
      (addressed_ok documented).mp addressed
    obtain ⟨typ, ⟨jku, x5u, jwk⟩, crit, held, kid, algorithm⟩ := select_ok.mp selected
    obtain ⟨⟨expiry, issuance, unexpired, begun, rest⟩, sum, sum'⟩ := timely_ok.mp done
    obtain ⟨subject, id, scopes, expiresAt⟩ := remaining_ok.mp rest
    exact ⟨⟨header, key, claims, ⟨shown, typ, held, kid, algorithm, jku, x5u, jwk, crit, signed,
      read, issuer, audience, unexpired, begun, subject, scopes⟩, counted, expiry, issuance, id,
      expiresAt⟩,
      expiresAt ▸ sum, sum'⟩
  · rintro ⟨⟨header, key, claims, grounds⟩, sum, sum'⟩
    have selected : verifier.select header = .ok key := select_ok.mpr
      ⟨grounds.typ, ⟨grounds.jku, grounds.x5u, grounds.jwk⟩, grounds.crit, grounds.held,
        grounds.kid, grounds.algorithm⟩
    have addressed : verifier.addressed jws presented = .ok claims :=
      (addressed_ok documented).mpr ⟨header, key, grounds.shown, selected, grounds.signature,
        grounds.read, grounds.counted, grounds.issuer, grounds.audience⟩
    rw [addressed]
    exact timely_ok.mpr ⟨⟨grounds.expiry, grounds.issuance, grounds.unexpired, grounds.begun,
      remaining_ok.mpr ⟨grounds.subject, grounds.id, grounds.scopes, grounds.expiresAt⟩⟩,
      grounds.expiresAt ▸ sum, sum'⟩

/-! ## The end of the calendar -/

variable (verifier valid payload presented now) in
/-- The clock, and the expiry of a signed token, are the skew before the end of the
calendar, or the expiry is past it. -/
def Fits : Prop :=
  now + verifier.skew.duration ≤ lastInstant ∧ ∀ key ∈ verifier.ring.keys, valid key.inner presented →
    ∀ claims, payload presented = some claims → claims.exp * 1000000 ≤ lastInstant →
      claims.exp * 1000000 + verifier.skew.duration ≤ lastInstant

/-- The instants of the calendar lie between the first and the last. -/
theorem representable_iff {instant : Instant} :
    representable instant = true ↔ firstInstant ≤ instant ∧ instant ≤ lastInstant := by
  unfold representable
  rw [Bool.and_eq_true, decide_eq_true_eq, decide_eq_true_eq]

/-- Between an instant of the calendar and its last one all are of the calendar. -/
theorem representable_later {instant : Instant} {duration : Duration}
    (from_ : representable instant = true) (nonnegative : 0 ≤ duration)
    (fits : instant + duration ≤ lastInstant) : representable (instant + duration) = true :=
  representable_iff.mpr ⟨le_trans (representable_iff.mp from_).1 (le_add_of_nonneg_right nonnegative),
    fits⟩

/-- The second of an instant is in the calendar. -/
theorem representable_second {instant : Instant} (within : representable instant = true) :
    representable (instant.timestamp * 1000000) = true := by
  have floor : ∀ number : Int, -8334601228800000000 ≤ number → number ≤ 8210266876799999999 →
      -8334601228800000000 ≤ number / 1000000 * 1000000 ∧
        number / 1000000 * 1000000 ≤ 8210266876799999999 := by
    intro number first last
    constructor <;> omega
  obtain ⟨first, last⟩ := representable_iff.mp within
  exact representable_iff.mpr (floor instant first last)

/-- **Where the times fit, verification comes back.** -/
theorem verify_returns (documented : jws.Documented valid payload pair)
    (clock : representable now = true) (fits : Fits verifier valid payload presented now) :
    ∃ result, verifier.verify jws presented now = some result := by
  unfold AccessTokenVerifier.verify
  split
  · exact ⟨_, rfl⟩
  next claims addressed =>
  obtain ⟨_, key, _, selected, signed, read, _⟩ := (addressed_ok documented).mp addressed
  have held := (select_ok.mp selected).2.2.2.1
  have horizon := representable_later clock verifier.skew.nonnegative fits.1
  unfold AccessTokenVerifier.timely
  split
  · exact ⟨_, rfl⟩
  next expiresAt ends =>
  split
  · exact ⟨_, rfl⟩
  next issuedAt starts =>
  obtain ⟨expiry, rfl⟩ := fromTimestamp_eq_some.mp ends
  have limit := representable_later expiry verifier.skew.nonnegative
    (fits.2 key held signed claims read (representable_iff.mp expiry).2)
  simp only [later_eq_some.mpr ⟨limit, rfl⟩, later_eq_some.mpr ⟨horizon, rfl⟩, Option.bind_eq_bind,
    Option.bind_some]
  split
  · exact ⟨_, rfl⟩
  split <;> exact ⟨_, rfl⟩

/-! ## Issued tokens -/

variable (verifier) in
/-- A verifier that is set up for an issuer's tokens. -/
structure Expects (issuer audience : String) (key : SigningKey Private)
    (pair : Private → Public → Prop) : Prop where
  issuer : issuer = verifier.issuer
  audience : audience ∈ verifier.audiences
  key : ∃ verifying ∈ verifier.ring.keys, verifying.id = key.id ∧
    verifying.algorithm = key.algorithm ∧ pair key.inner verifying.inner

/-- What an issued token says. -/
theorem issue_claims {issuer audience : String} {key : SigningKey Private}
    {lifetime : AccessLifetime} {subject : UserId} {scopes : ScopeSet} {moment : Instant}
    {jti : Option Sixteen} {token : AccessToken}
    (issued : issue (issuerOf jws issuer audience key lifetime) subject scopes moment jti =
      some (.ok token)) :
    ∃ identifier, jti = some identifier ∧ representable (moment + lifetime.duration) = true ∧
      token.claims = ⟨issuer, [audience], subject.hex,
        (moment + lifetime.duration : Instant).timestamp, moment.timestamp, identifier.hex,
        scopes.toClaim⟩ ∧
      jws.encode key.header token.claims key.inner = some token.signed := by
  obtain ⟨expiry, added, issued⟩ := Option.bind_eq_some_iff.mp issued
  obtain ⟨sum, rfl⟩ := later_eq_some.mp added
  have issued := Option.some.inj issued
  unfold AccessTokenIssuer.issue at issued
  cases jti with
  | none => cases issued
  | some identifier =>
      simp only [drawn, bind, Except.bind, pure, Except.pure] at issued
      split at issued
      next signed encoded =>
        cases issued
        exact ⟨identifier, rfl, sum, rfl, encoded⟩
      next => cases issued

/-- **An issued token is accepted from its issuance to its expiry, for what it says.** -/
theorem verify_issued (documented : jws.Documented valid payload pair) {issuer audience : String}
    {key : SigningKey Private} {lifetime : AccessLifetime} {subject : UserId} {scopes : ScopeSet}
    {moment : Instant} {jti : Option Sixteen} {token : AccessToken}
    (expects : Expects verifier issuer audience key pair) (clock : representable moment = true)
    (issued : issue (issuerOf jws issuer audience key lifetime) subject scopes moment jti =
      some (.ok token)) (counted : 0 ≤ token.claims.exp)
    (begun : token.claims.iat * 1000000 ≤ now) (unexpired : now ≤ token.claims.exp * 1000000)
    (fits : Fits verifier valid payload token.signed now) :
    ∃ verified, verifier.verify jws token.signed now = some (.ok verified) ∧
      verified.subject = subject ∧ verified.scopes = scopes ∧ verified.id.text = token.claims.jti ∧
        verified.expiresAt = token.claims.exp * 1000000 := by
  obtain ⟨identifier, _, sum, claims, encoded⟩ := issue_claims issued
  obtain ⟨shown, read, signed⟩ := documented.encodes _ _ _ _ encoded
  obtain ⟨verifying, held, ids, algorithms, paired⟩ := expects.key
  have skew := verifier.skew.nonnegative
  have expiry : representable (token.claims.exp * 1000000) = true := by
    rw [claims]
    exact representable_second sum
  have issuance : representable (token.claims.iat * 1000000) = true := by
    rw [claims]
    exact representable_second clock
  have running : representable now = true := by
    have one := (representable_iff.mp issuance).1
    have two := (representable_iff.mp expiry).2
    exact representable_iff.mpr ⟨le_trans one begun, le_trans unexpired two⟩
  refine ⟨⟨subject, token.claims.exp * 1000000, scopes, ⟨identifier.hex, validJwtId_hex identifier⟩⟩,
    (verify_ok documented).mpr ⟨⟨key.header, verifying, token.claims, ?_⟩, ?_, ?_⟩, rfl, rfl, ?_, rfl⟩
  · exact {
      shown, typ := rfl, held
      kid := by rw [ids]; rfl
      algorithm := by rw [algorithms]; rfl
      jku := rfl, x5u := rfl, jwk := rfl, crit := rfl
      signature := signed _ paired
      read
      issuer := by rw [claims]; exact expects.issuer
      audience := ⟨audience, by rw [claims]; exact List.mem_singleton_self _, expects.audience⟩
      counted, expiry, issuance
      unexpired := le_trans unexpired (le_add_of_nonneg_right skew)
      begun := le_trans begun (le_add_of_nonneg_right skew)
      subject := by rw [claims]
      id := by rw [claims]
      scopes := by rw [claims]; exact scopes.parseClaim_toClaim
      expiresAt := rfl }
  · exact representable_later expiry skew (fits.2 verifying held (signed _ paired) _ read
      (representable_iff.mp expiry).2)
  · exact representable_later running skew fits.1
  · rw [claims]

/-- **Verification, where the times fit the calendar**: it comes back, it accepts a token
on its grounds and no others, and an issued token for as long as it says. -/
theorem verification (jws : Jws Private Public) (verifier : AccessTokenVerifier Public)
    (valid : Public → String → Prop) (payload : String → Option AccessClaims)
    (pair : Private → Public → Prop) (documented : jws.Documented valid payload pair) :
    (∀ presented now, representable now = true → Fits verifier valid payload presented now →
      (∃ result, verifier.verify jws presented now = some result) ∧
        ∀ token, verifier.verify jws presented now = some (.ok token) ↔
          Accepted jws verifier valid payload presented now token) ∧
      ∀ issuer audience key lifetime subject scopes moment jti token now,
        Expects verifier issuer audience key pair → representable moment = true →
        issue (issuerOf jws issuer audience key lifetime) subject scopes moment jti = some (.ok token) →
        0 ≤ token.claims.exp →
        token.claims.iat * 1000000 ≤ now → now ≤ token.claims.exp * 1000000 →
        Fits verifier valid payload token.signed now →
          ∃ verified, verifier.verify jws token.signed now = some (.ok verified) ∧
            verified.subject = subject ∧ verified.scopes = scopes ∧
              verified.id.text = token.claims.jti ∧
                verified.expiresAt = token.claims.exp * 1000000 := by
  refine ⟨fun presented now clock fits => ⟨verify_returns documented clock fits, fun token => ?_⟩, ?_⟩
  · rw [verify_ok documented]
    refine ⟨And.left, fun accepted => ⟨accepted, ?_, ?_⟩⟩
    · obtain ⟨header, key, claims, grounds⟩ := accepted
      rw [grounds.expiresAt]
      exact representable_later grounds.expiry verifier.skew.nonnegative
        (fits.2 key grounds.held grounds.signature claims grounds.read
          (representable_iff.mp grounds.expiry).2)
    · exact representable_later clock verifier.skew.nonnegative fits.1
  · intro issuer audience key lifetime subject scopes moment jti token now expects clock issued counted
      begun unexpired fits
    exact verify_issued documented expects clock issued counted begun unexpired fits

/-! ## One token -/

/-- One token is all that was signed. -/
def single (token : String) (header : Header) (claims : AccessClaims) : Jws Unit Unit where
  decodeHeader presented := if presented = token then some header else none
  decode presented _ validation :=
    if presented ≠ token then .error .invalidSignature
    else if header.alg ∉ validation.algorithms then .error .other
    else if "exp" ∈ validation.requiredSpecClaims ∧ claims.exp < 0 then .error .other
    else if claims.iss ∉ validation.issuers then .error .invalidIssuer
    else if claims.aud.all (· ∉ validation.audiences) then .error .invalidAudience
    else .ok claims
  encode given signed _ := if given = header ∧ signed = claims then some token else none

theorem single_documented (token : String) (header : Header) (claims : AccessClaims) :
    (single token header claims).Documented (fun _ presented => presented = token)
      (fun presented => if presented = token then some claims else none) fun _ _ => True where
  decodes := by
    intro presented key validation given read shown _ _ _
    have same : presented = token := by
      by_contra differ
      simp [single, differ] at shown
    subst same
    simp only [single, ↓reduceIte, Option.some.injEq] at shown ⊢
    subst shown
    rw [if_neg (fun differ => differ rfl)]
    constructor
    · intro told
      split at told
      · cases told
      next algorithm =>
      split at told
      · cases told
      next negative =>
      split at told
      · cases told
      next issuer =>
      split at told
      · cases told
      next nobody =>
      cases told
      refine ⟨not_not.mp algorithm, trivial, rfl,
        fun required => not_lt.mp fun below => negative ⟨required, below⟩, not_not.mp issuer, ?_⟩
      by_contra none_
      exact nobody (List.all_eq_true.mpr fun name heard =>
        decide_eq_true fun allowed => none_ ⟨name, heard, allowed⟩)
    · rintro ⟨algorithm, _, same, counted, issuer, name, heard, allowed⟩
      cases same
      have someone : ¬ (claims.aud.all (· ∉ validation.audiences)) = true := fun nobody =>
        of_decide_eq_true (List.all_eq_true.mp nobody name heard) allowed
      rw [if_neg (fun refused => refused algorithm),
        if_neg (fun refused => not_lt.mpr (counted refused.1) refused.2),
        if_neg (fun refused => refused issuer), if_neg someone]
  encodes := by
    intro given signed key presented encoded
    simp only [single] at encoded ⊢
    split at encoded
    next same =>
      cases encoded
      simp [same.1, same.2]
    next => cases encoded

/-- The identifier of zeros. -/
def firstUser : UserId := ⟨List.replicate 16 0, rfl⟩

/-- The one key of a ring. -/
def onlyKey : VerifyingKey Unit := ⟨⟨"k1", by decide⟩, .ed25519, ()⟩

/-- A verifier with one key and no skew worth a minute. -/
def oneKey : AccessTokenVerifier Unit where
  issuer := "https://issuer.example"
  audiences := ["orders"]
  some_audience := by decide
  ring := ⟨[onlyKey], by decide, by decide, by decide⟩
  skew := ⟨30000000, by decide, by decide⟩

def signer : SigningKey Unit := ⟨⟨"k1", by decide⟩, .ed25519, ()⟩

def claimsOf (exp : Int) (jti : String) : AccessClaims :=
  ⟨"https://issuer.example", ["orders"], firstUser.hex, exp, 1700000000, jti, ""⟩

def noScopes : ScopeSet := ⟨[], List.Pairwise.nil, by decide⟩

theorem expected_single (exp : Int) (jti : String) (unexpired : 1700000000 ≤ exp) :
    Expected (single "t" signer.header (claimsOf exp jti)) oneKey
      (fun _ presented => presented = "t")
      (fun presented => if presented = "t" then some (claimsOf exp jti) else none) "t"
      1700000000000000 signer.header onlyKey (claimsOf exp jti) firstUser noScopes where
  shown := rfl
  typ := rfl
  held := List.mem_singleton_self _
  kid := rfl
  algorithm := rfl
  jku := rfl
  x5u := rfl
  jwk := rfl
  crit := rfl
  signature := rfl
  read := rfl
  issuer := rfl
  audience := ⟨"orders", List.mem_singleton_self _, List.mem_singleton_self _⟩
  unexpired := by
    change (1700000000000000 : Int) ≤ exp * 1000000 + 30000000
    omega
  begun := by
    change (1700000000 : Int) * 1000000 ≤ 1700000000000000 + 30000000
    decide
  subject := rfl
  scopes := noScopes.parseClaim_toClaim

/-- **A token that is all that is expected is refused for its identifier, and for one
that expires with the calendar verification does not come back.** -/
theorem expected_not_accepted :
    (∃ presented, Expected (single "t" signer.header (claimsOf 1700000900 "x")) oneKey
        (fun _ presented => presented = "t")
        (fun presented => if presented = "t" then some (claimsOf 1700000900 "x") else none) presented
        1700000000000000 signer.header onlyKey (claimsOf 1700000900 "x") firstUser noScopes ∧
      oneKey.verify (single "t" signer.header (claimsOf 1700000900 "x")) presented 1700000000000000 =
        some (.error .malformedClaims)) ∧
    oneKey.verify (single "t" signer.header (claimsOf 8210266876799 firstUser.hex)) "t"
      1700000000000000 = none := by
  refine ⟨⟨"t", expected_single 1700000900 "x" (by decide), ?_⟩, by decide +kernel⟩
  decide +kernel

/-- An issued token, verified when it is issued. -/
theorem verification_once : ∃ verified, oneKey.verify
      (single "t" signer.header (claimsOf 1700000900 firstUser.hex)) "t" 1700000000000000 =
        some (.ok verified) ∧ verified.subject = firstUser := by
  have issued : issue (issuerOf (single "t" signer.header (claimsOf 1700000900 firstUser.hex))
      "https://issuer.example" "orders" signer ⟨900000000, by decide, by decide⟩) firstUser noScopes
      1700000000000000 (some firstUser) =
        some (.ok ⟨claimsOf 1700000900 firstUser.hex, "t"⟩) := by
    decide +kernel
  obtain ⟨verified, told, subject, _⟩ := (verification
    (single "t" signer.header (claimsOf 1700000900 firstUser.hex)) oneKey
    (fun _ presented => presented = "t")
    (fun presented => if presented = "t" then some (claimsOf 1700000900 firstUser.hex) else none)
    (fun _ _ => True) (single_documented "t" signer.header (claimsOf 1700000900 firstUser.hex))).2
    _ _ signer _ firstUser noScopes 1700000000000000 (some firstUser) _ 1700000000000000
    ⟨rfl, List.mem_singleton_self _, onlyKey, List.mem_singleton_self _, rfl, rfl, trivial⟩
    (by decide) issued (by decide) (by decide) (by decide)
    ⟨by decide, fun _ _ _ claims read _ => by cases read; decide⟩
  exact ⟨verified, told, subject⟩

end Renvor.Token
