import Renvor.Http.SerialisedOrigin

/-! # Origins against their grammar

An origin's host is a registered name or an IPv6 address in brackets. The parser takes
any text in brackets and any name of an origin's characters, and no name of dots alone; on
every other text it accepts just the origins (`Renvor.EffectiveOrigin.accepts_iff`). The
normaliser returns again what it returned, unless a space ends it.
-/

namespace Renvor

/-- A registered name: letters, digits, some marks and escapes. -/
def isRegisteredName : List Char → Bool
  | [] => true
  | '%' :: high :: low :: rest =>
      (digitValue 16 high).isSome && (digitValue 16 low).isSome && isRegisteredName rest
  | character :: rest =>
      (character.isAlphanum || "-._~!$&()*+,;=".toList.contains character ||
        character.toNat = 0x27) && isRegisteredName rest

/-- An IPv6 address in brackets. -/
def isIpv6Literal : List Char → Bool
  | '[' :: rest => (stripSuffix [']'] rest).any fun literal => match IpAddr.parse literal with
      | some (.v6 _) => true
      | _ => false
  | _ => false

/-- **A host of an origin.** A registered name that is not empty, or an IPv6 address in
brackets. -/
def OriginHost (host : List Char) : Prop :=
  host ≠ [] ∧ isRegisteredName host = true ∨ isIpv6Literal host = true

/-- A text that is a scheme, a host and a port one after the other, within the bound. -/
structure OriginParts (text : String) (scheme host : List Char) (port : Option (List Char)) :
    Prop where
  whole : text.toList = scheme ++ "://".toList ++ host ++ portText port
  known : scheme.map Char.toLower = "http".toList ∨ scheme.map Char.toLower = "https".toList
  ports : ∀ digits ∈ port, PortDigits digits
  bounded : text.utf8ByteSize ≤ maxOriginBytes

/-- **An origin, as its grammar has it.** -/
def IsOrigin (text : String) : Prop :=
  ∃ scheme host port, OriginParts text scheme host port ∧ OriginHost host

/-- **A host that is taken for another thing than it is.** A text in brackets that is no
address, and a name with a character that no registered name has, are let through; a name of
dots alone is not. -/
inductive MisreadHost : List Char → Prop
  | literal (literal : List Char) (closed : ']' ∉ literal)
      (character : ∀ character ∈ literal, OriginCharacter character)
      (junk : isIpv6Literal ('[' :: literal ++ [']']) = false) :
      MisreadHost ('[' :: literal ++ [']'])
  | name (name : List Char) (bare : name.head? ≠ some '[') (colon : ':' ∉ name)
      (character : ∀ character ∈ name, OriginCharacter character)
      (named : ∃ character ∈ name, character ≠ '.') (junk : isRegisteredName name = false) :
      MisreadHost name
  | dots (more : Nat) : MisreadHost (List.replicate (more + 1) '.')

/-- A `Host` as it is written: a host and a port, with blanks about them. -/
structure HostParts (raw : String) (host : List Char) (port : Option (List Char)) : Prop where
  whole : (trim raw).toList = host ++ portText port
  delimited : Delimited host
  ports : ∀ digits ∈ port, PortDigits digits

/-- The length of a port that is serialised: that of the scheme is left out. -/
def portLength (scheme : Scheme) : Option (List Char) → Nat
  | none => 0
  | some digits =>
      if portValue digits = scheme.defaultPort.val then 0
      else (Nat.toDigits 10 (portValue digits)).length + 1

/-- The length of the origin that a `Host` names, when it is serialised: the dots after the
host are left out. -/
def originLength (scheme : Scheme) (host : List Char) (port : Option (List Char)) : Nat :=
  scheme.asStr.toList.length + "://".toList.length + (host.rdropWhile (· = '.')).length +
    portLength scheme port

/-! ## The characters of a host -/

/-- A character that a name in an origin has. -/
def NameCharacter (character : Char) : Prop :=
  OriginCharacter character ∧ character ≠ ':' ∧ character ≠ '[' ∧ character ≠ ']'

instance (character : Char) : Decidable (NameCharacter character) :=
  inferInstanceAs (Decidable (_ ∧ _))

/-- The characters of a name, by their codes. -/
theorem nameCharacter_iff {character : Char} :
    NameCharacter character ↔ 0x20 < character.toNat ∧ character.toNat < 0x7F ∧
      character.toNat ∉ [0x40, 0x2F, 0x5C, 0x3F, 0x23, 0x3A, 0x5B, 0x5D] := by
  have code : ∀ mark : Char, character = mark ↔ character.toNat = mark.toNat :=
    fun mark => ⟨fun same => same ▸ rfl, fun same => Char.ext (UInt32.toNat_inj.mp same)⟩
  have marks : character ∈ "@/\\?#".toList ↔ character = '@' ∨ character = '/' ∨
      character = '\\' ∨ character = '?' ∨ character = '#' := by simp
  unfold NameCharacter OriginCharacter Visible
  simp only [marks, ne_eq, code, Char.reduceToNat, List.mem_cons, List.not_mem_nil, or_false]
  omega

/-- The characters of an address are those of a name, and the colon. -/
theorem Hexadecimal.name {character : Char} (own : Hexadecimal character) :
    NameCharacter character ∨ character = ':' := by
  have slash : character ≠ '/' := by
    rintro rfl
    revert own
    unfold Hexadecimal
    decide
  have range := own.range
  rw [Ne, ← Char.toNat_inj] at slash
  rw [← Char.toNat_inj, nameCharacter_iff]
  simp only [List.mem_cons, List.not_mem_nil, or_false]
  change character.toNat ≠ 47 at slash
  change _ ∨ character.toNat = 58
  omega

/-- The characters that the grammar writes as they are may stand in a name. -/
theorem nameCharacter_plain {character : Char}
    (plain : (character.isAlphanum || "-._~!$&()*+,;=".toList.contains character ||
      character.toNat = 0x27) = true) : NameCharacter character := by
  rw [Bool.or_eq_true, Bool.or_eq_true, List.contains_iff_mem, decide_eq_true_eq] at plain
  rcases plain with (letter | mark) | quote
  · rw [nameCharacter_iff]
    change ((decide (character.val ≥ 65 ∧ character.val ≤ 90) ||
      character.val ≥ 97 && character.val ≤ 122) ||
      character.val ≥ 48 && character.val ≤ 57) = true at letter
    simp only [Bool.or_eq_true, Bool.and_eq_true, decide_eq_true_eq, ge_iff_le,
      UInt32.le_iff_toNat_le] at letter
    simp only [List.mem_cons, List.not_mem_nil, or_false]
    change ((65 ≤ character.toNat ∧ character.toNat ≤ 90) ∨
      (97 ≤ character.toNat ∧ character.toNat ≤ 122)) ∨
      (48 ≤ character.toNat ∧ character.toNat ≤ 57) at letter
    omega
  · have all : ∀ mark ∈ "-._~!$&()*+,;=".toList, NameCharacter mark :=
      List.all_iff_forall_prop.mp rfl
    exact all character mark
  · rw [nameCharacter_iff, quote]
    decide

/-- A registered name has characters of a name only, the percent sign among them. -/
theorem isRegisteredName_character {name : List Char} (registered : isRegisteredName name = true)
    {character : Char} (member : character ∈ name) : NameCharacter character := by
  have digit : ∀ digit, (digitValue 16 digit).isSome = true → NameCharacter digit := by
    intro digit value
    refine (Hexadecimal.name (.inl value)).resolve_right ?_
    rintro rfl
    exact absurd value (by decide)
  induction name using isRegisteredName.induct with
  | case1 => cases member
  | case2 high low rest ih =>
      simp only [isRegisteredName, Bool.and_eq_true] at registered
      simp only [List.mem_cons] at member
      rcases member with rfl | rfl | rfl | member
      · decide
      · exact digit _ registered.1.1
      · exact digit _ registered.1.2
      · exact ih registered.2 member
  | case3 first rest plain ih =>
      rw [isRegisteredName] at registered
      · rw [Bool.and_eq_true] at registered
        rcases List.mem_cons.mp member with rfl | member
        · exact nameCharacter_plain registered.1
        · exact ih registered.2 member
      · exact plain

/-- A literal is an address in brackets. -/
theorem isIpv6Literal_iff {host : List Char} :
    isIpv6Literal host = true ↔
      ∃ literal octets, host = '[' :: literal ++ [']'] ∧
        IpAddr.parse literal = some (.v6 octets) := by
  constructor
  · intro literal
    unfold isIpv6Literal at literal
    split at literal
    next rest =>
      obtain ⟨inside, ends, address⟩ := (Option.any_eq_true _ _).mp literal
      refine ⟨inside, ?_⟩
      split at address
      next octets parsed => exact ⟨octets, congrArg _ (stripSuffix_some.mp ends), parsed⟩
      next => cases address
    next => cases literal
  · rintro ⟨literal, octets, rfl, parsed⟩
    have ends : stripSuffix [']'] (literal ++ [']']) = some literal := stripSuffix_some.mpr rfl
    rw [List.cons_append, isIpv6Literal, ends, Option.any_some, parsed]

/-- The host of an origin is delimited, and has characters of an origin. -/
theorem OriginHost.shape {host : List Char} (own : OriginHost host) :
    Delimited host ∧ ∀ character ∈ host, OriginCharacter character := by
  rcases own with ⟨_, registered⟩ | address
  · have characters : ∀ character ∈ host, NameCharacter character :=
      fun _ member => isRegisteredName_character registered member
    refine ⟨.inr ⟨fun first => ?_, fun colon => (characters ':' colon).2.1 rfl⟩,
      fun character member => (characters character member).1⟩
    exact (characters '[' (List.mem_of_mem_head? first)).2.2.1 rfl
  · obtain ⟨literal, octets, rfl, parsed⟩ := isIpv6Literal_iff.mp address
    have inside : ∀ character ∈ literal, OriginCharacter character ∧ character ≠ ']' := by
      intro character member
      rcases (IpAddr.parse_hexadecimal parsed character member).name with name | rfl
      · exact ⟨name.1, name.2.2.2⟩
      · decide
    refine ⟨.inl ⟨literal, fun member => (inside _ member).2 rfl, rfl⟩, ?_⟩
    rw [List.cons_append, List.forall_mem_cons, List.forall_mem_append, List.forall_mem_singleton]
    exact ⟨by decide, fun character member => (inside character member).1, by decide⟩

/-- The parser takes any characters of an origin in brackets, whatever literal they are. -/
theorem AcceptedHost.bracketed {literal : List Char} (closed : ']' ∉ literal)
    (characters : ∀ character ∈ literal, OriginCharacter character) :
    AcceptedHost ('[' :: literal ++ [']']) where
  delimited := .inl ⟨literal, closed, rfl⟩
  named := ⟨'[', List.mem_cons_self, by decide⟩
  character := by
    rw [List.cons_append, List.forall_mem_cons, List.forall_mem_append, List.forall_mem_singleton]
    exact ⟨by decide, characters, by decide⟩

/-- Dots alone are a registered name of the grammar, however many there are. -/
theorem isRegisteredName_dots (count : Nat) :
    isRegisteredName (List.replicate count '.') = true := by
  induction count with
  | zero => rfl
  | succ more ih =>
      rw [List.replicate_succ, isRegisteredName]
      · exact ih
      · exact fun high low rest whole => by cases whole

/-- A host of the grammar that the parser refuses is dots alone, at least one of them. -/
theorem OriginHost.dots {host : List Char} (own : OriginHost host)
    (refused : ¬AcceptedHost host) : ∃ more, host = List.replicate (more + 1) '.' := by
  have dots : host = List.replicate host.length '.' := by
    refine List.eq_replicate_of_mem fun character member => ?_
    by_contra other
    exact refused ⟨own.shape.1, ⟨character, member, other⟩, own.shape.2⟩
  have some : host ≠ [] := by
    rcases own with ⟨some, _⟩ | address
    · exact some
    · rintro rfl
      cases address
  obtain ⟨more, counted⟩ := Nat.exists_eq_succ_of_ne_zero (mt List.length_eq_zero_iff.mp some)
  exact ⟨more, dots.trans (congrArg (List.replicate · '.') counted)⟩

/-- **Where the parser and the grammar differ about a host.** -/
theorem misreadHost_iff {host : List Char} :
    MisreadHost host ↔ ¬(AcceptedHost host ↔ OriginHost host) := by
  constructor
  · rintro (⟨literal, closed, characters, junk⟩ | ⟨_, bare, colon, characters, named, junk⟩ | more)
      same
    · rcases same.mp (.bracketed closed characters) with ⟨_, registered⟩ | address
      · exact (isRegisteredName_character registered List.mem_cons_self).2.2.1 rfl
      · rw [junk] at address
        cases address
    · rcases same.mp ⟨.inr ⟨bare, colon⟩, named, characters⟩ with ⟨_, registered⟩ | address
      · rw [junk] at registered
        cases registered
      · obtain ⟨literal, _, rfl, _⟩ := isIpv6Literal_iff.mp address
        exact bare rfl
    · obtain ⟨character, member, other⟩ :=
        (same.mpr (.inl ⟨by simp, isRegisteredName_dots (more + 1)⟩)).named
      exact other (List.eq_of_mem_replicate member)
  · intro differ
    by_cases own : OriginHost host
    · obtain ⟨more, rfl⟩ := own.dots fun accepted => differ (iff_of_true accepted own)
      exact .dots more
    · have accepted : AcceptedHost host := by
        by_contra refused
        exact differ (iff_of_false refused own)
      unfold OriginHost at own
      rw [not_or, Bool.not_eq_true (isIpv6Literal _)] at own
      rcases accepted.delimited with ⟨literal, closed, rfl⟩ | ⟨bare, colon⟩
      · refine .literal literal closed (fun character member => ?_) own.2
        exact accepted.character character (List.mem_cons_of_mem _ (List.mem_append_left _ member))
      · refine .name host bare colon accepted.character accepted.named ?_
        rw [← Bool.not_eq_true]
        intro registered
        obtain ⟨character, member, _⟩ := accepted.named
        exact own.1 ⟨List.ne_nil_of_mem member, registered⟩

/-! ## Texts -/

/-- What is written as a host and a port is so in one way. -/
theorem authority_unique {host host' : List Char} {port port' : Option (List Char)}
    (delimited : Delimited host) (ports : ∀ digits ∈ port, PortDigits digits)
    (delimited' : Delimited host') (ports' : ∀ digits ∈ port', PortDigits digits)
    (same : host ++ portText port = host' ++ portText port') : host = host' ∧ port = port' := by
  have read : ∀ {host port}, Delimited host → (∀ digits ∈ port, PortDigits digits) →
      splitPort (host ++ portText port) =
        some (host, port.map fun digits => Fin.ofNat 65536 (portValue digits)) := by
    intro host port delimited ports
    refine splitPort_iff.mpr ⟨port, rfl, delimited, ports, ?_⟩
    cases port with
    | none => rfl
    | some digits => exact congrArg some (Nat.mod_eq_of_lt (ports digits rfl).fits).symm
  have first := read delimited ports
  rw [same, read delimited' ports'] at first
  obtain rfl := (Prod.mk.inj (Option.some.inj first)).1
  refine ⟨rfl, ?_⟩
  have tails := List.append_cancel_left same
  cases port <;> cases port' <;> cases tails <;> rfl

/-- What is read is a scheme, a host and a port. -/
theorem SerialisedOrigin.parts (written : SerialisedOrigin) :
    OriginParts written.text written.scheme written.host written.port where
  whole := written.toList_text
  known := by
    have lowered := Scheme.parse_iff.mp written.scheme_parsed
    cases read : written.schemeRead with
    | http => exact .inl (by rw [lowered, read]; rfl)
    | https => exact .inr (by rw [lowered, read]; rfl)
  ports := written.ports
  bounded := written.bounded

namespace OriginParts

variable {text : String} {scheme scheme' host host' : List Char} {port port' : Option (List Char)}

/-- An origin that was split into its parts has a scheme that is known. -/
theorem scheme_known (parts : OriginParts text scheme host port) :
    (Scheme.parse (String.ofList scheme)).isSome = true := by
  rcases parts.known with http | https
  · exact Option.isSome_iff_exists.mpr ⟨.http, Scheme.parse_iff.mpr http⟩
  · exact Option.isSome_iff_exists.mpr ⟨.https, Scheme.parse_iff.mpr https⟩

/-- What is written after the scheme. -/
theorem authority (parts : OriginParts text scheme host port) :
    splitOnce "://".toList text.toList = some (scheme, host ++ portText port) := by
  obtain ⟨known, parsed⟩ := Option.isSome_iff_exists.mp parts.scheme_known
  rw [parts.whole, List.append_assoc]
  exact splitOnce_append fun colon => (Scheme.letter parsed colon).2 rfl

/-- A text is one host's. -/
theorem host_unique (parts : OriginParts text scheme host port) (delimited : Delimited host)
    (parts' : OriginParts text scheme' host' port') (delimited' : Delimited host') :
    host = host' := by
  have same := Option.some.inj (parts.authority.symm.trans parts'.authority)
  exact (authority_unique delimited parts.ports delimited' parts'.ports (Prod.mk.inj same).2).1

/-- **A text is accepted just where its host is.** -/
theorem accepted_iff (parts : OriginParts text scheme host port) (delimited : Delimited host) :
    (EffectiveOrigin.parse text).isSome = true ↔ AcceptedHost host := by
  constructor
  · intro accepted
    obtain ⟨origin, parsed⟩ := Option.isSome_iff_exists.mp accepted
    obtain ⟨written, rfl, _⟩ := EffectiveOrigin.parse_some parsed
    rw [parts.host_unique delimited written.parts written.accepted.delimited]
    exact written.accepted
  · intro accepted
    let written : SerialisedOrigin :=
      { scheme, host, port, accepted
        known := parts.scheme_known
        ports := parts.ports
        bounded := by
          rw [← parts.whole, String.ofList_toList]
          exact parts.bounded }
    have same : written.text = text := by
      rw [← String.toList_inj, written.toList_text, parts.whole]
    rw [← same, written.parse_text]
    rfl

/-- **A text is an origin just where its host is one's.** -/
theorem isOrigin_iff (parts : OriginParts text scheme host port) (delimited : Delimited host) :
    IsOrigin text ↔ OriginHost host := by
  constructor
  · rintro ⟨_, _, _, parts', own⟩
    rw [parts.host_unique delimited parts' own.shape.1]
    exact own
  · exact fun own => ⟨scheme, host, port, parts, own⟩

end OriginParts

/-- **The parser accepts just the origins, on every text without a misread host.** -/
theorem EffectiveOrigin.accepts_iff (text : String) :
    ((EffectiveOrigin.parse text).isSome = true ↔ IsOrigin text) ↔
      ∀ scheme host port, OriginParts text scheme host port → ¬MisreadHost host := by
  constructor
  · intro same scheme host port parts misread
    have differ := misreadHost_iff.mp misread
    have delimited : Delimited host := by
      by_contra other
      exact differ (iff_of_false (fun accepted => other accepted.delimited)
        fun own => other own.shape.1)
    rw [parts.accepted_iff delimited, parts.isOrigin_iff delimited] at same
    exact differ same
  · intro plain
    have agree : ∀ {scheme host port}, OriginParts text scheme host port →
        (AcceptedHost host ↔ OriginHost host) := by
      intro scheme host port parts
      by_contra differ
      exact plain scheme host port parts (misreadHost_iff.mpr differ)
    constructor
    · intro accepted
      obtain ⟨origin, parsed⟩ := Option.isSome_iff_exists.mp accepted
      obtain ⟨written, rfl, _⟩ := EffectiveOrigin.parse_some parsed
      exact ⟨_, _, _, written.parts, (agree written.parts).mp written.accepted⟩
    · rintro ⟨scheme, host, port, parts, own⟩
      exact (parts.accepted_iff own.shape.1).mpr ((agree parts).mpr own)

/-! ## Hosts -/

/-- Folding drops the dots at the end and lowers what is left. -/
theorem foldHost_map (host : List Char) :
    foldHost host = (host.rdropWhile (· = '.')).map Char.toLower := by
  induction host using List.reverseRecOn with
  | nil => rfl
  | append_singleton front last ih =>
      rw [foldHost_rdropWhile] at ih ⊢
      rw [List.map_append, List.map_singleton]
      by_cases dot : last = '.'
      · rw [List.rdropWhile_concat_pos _ _ _ (by rw [dot]; decide),
          List.rdropWhile_concat_pos _ _ _ (by rw [dot]; decide), ih]
      · have lower : ¬decide (last.toLower = '.') = true := by
          rw [decide_eq_true_eq, toLower_caseless (by decide)]
          exact dot
        rw [List.rdropWhile_concat_neg (· = '.') _ _ lower,
          List.rdropWhile_concat_neg (· = '.') _ _ (by rw [decide_eq_true_eq]; exact dot),
          List.map_append, List.map_singleton]

/-- Lowering keeps the characters of an origin, and brings no others among them. -/
theorem OriginCharacter.lower_iff {character : Char} :
    OriginCharacter character.toLower ↔ OriginCharacter character := by
  refine ⟨fun own => ?_, OriginCharacter.lower⟩
  rcases toLower_cases character with ⟨same, _⟩ | ⟨upper, _⟩
  · rwa [same] at own
  · refine ⟨⟨by omega, by omega⟩, fun member => ?_⟩
    have outside : ∀ mark ∈ "@/\\?#".toList, ¬(0x41 ≤ mark.toNat ∧ mark.toNat ≤ 0x5A) :=
      List.all_iff_forall_prop.mp rfl
    exact outside character member upper

/-- The characters of a host are those of what is left when the dots after it are dropped. -/
theorem origin_rdropWhile {host : List Char} :
    (∀ character ∈ host.rdropWhile (· = '.'), OriginCharacter character) ↔
      ∀ character ∈ host, OriginCharacter character := by
  constructor
  · intro own character member
    rw [← host.rdropWhile_append_rtakeWhile (p := (· = '.')), List.mem_append] at member
    rcases member with member | dots
    · exact own character member
    · have dot := List.mem_rtakeWhile_imp dots
      rw [decide_eq_true_eq] at dot
      rw [dot]
      decide
  · exact fun own character member =>
      own character (( List.rdropWhile_prefix _ host).subset member)

namespace HostParts

variable {raw : String} {host host' : List Char} {port port' : Option (List Char)}

/-- A text is one host and one port. -/
theorem unique (parts : HostParts raw host port) (parts' : HostParts raw host' port') :
    host = host' ∧ port = port' := by
  exact authority_unique parts.delimited parts.ports parts'.delimited parts'.ports
    (parts.whole.symm.trans parts'.whole)

/-- What is read of a `Host` is the host and the port that are written. -/
theorem of_normaliseHost {name : String} {number : Option (Fin 65536)}
    (normal : normaliseHost raw = some (name, number)) :
    ∃ host port, HostParts raw host port ∧ name.toList = foldHost host ∧
      port.map portValue = number.map Fin.val := by
  obtain ⟨_, host, port, whole, delimited, ports, value, _, rfl⟩ := normaliseHost_iff.mp normal
  exact ⟨host, port, ⟨whole, delimited, ports⟩, String.toList_ofList, value⟩

/-- **A normalised host is normalised to itself, where no space ends what is written before
the dots and the port.** -/
theorem normaliseHost_again_iff {name : String} {number : Option (Fin 65536)}
    (normal : normaliseHost raw = some (name, number)) :
    normaliseHost name = some (name, none) ↔ ∀ host port, HostParts raw host port →
      (host.rdropWhile (· = '.')).getLast? ≠ some ' ' := by
  obtain ⟨host, port, parts, folded, _⟩ := of_normaliseHost normal
  have last : name.toList.getLast? = some ' ' ↔
      (host.rdropWhile (· = '.')).getLast? = some ' ' := by
    rw [folded, foldHost_map, List.getLast?_map, Option.map_eq_some_iff]
    constructor
    · rintro ⟨character, ends, lower⟩
      rw [toLower_caseless (by decide)] at lower
      rw [ends, lower]
    · exact fun ends => ⟨' ', ends, rfl⟩
  rw [normaliseHost_again normal, Ne, last]
  constructor
  · intro ends host' port' parts'
    rw [(parts'.unique parts).1]
    exact ends
  · exact fun all => all host port parts

end HostParts

/-- The characters of a folded host are those of the host. -/
theorem origin_foldHost {host : List Char} :
    (∀ character ∈ foldHost host, OriginCharacter character) ↔
      ∀ character ∈ host, OriginCharacter character := by
  rw [foldHost_map, List.forall_mem_map, ← origin_rdropWhile]
  exact forall₂_congr fun _ _ => OriginCharacter.lower_iff

/-- The length of what is serialised, where the host has characters of an origin. -/
theorem EffectiveOrigin.serialise_length {origin : EffectiveOrigin} {host : List Char}
    {port : Option (List Char)} (ports : ∀ digits ∈ port, PortDigits digits)
    (folded : origin.host.toList = foldHost host)
    (value : origin.port.val = (port.map portValue).getD origin.scheme.defaultPort.val)
    (characters : ∀ character ∈ host, OriginCharacter character) :
    origin.serialise.utf8ByteSize = originLength origin.scheme host port := by
  have positive : 0 < origin.port.val := by
    rw [value]
    cases port with
    | none => cases origin.scheme <;> decide
    | some digits => exact (ports digits rfl).positive
  have digits : ∀ digits ∈ (if origin.port = origin.scheme.defaultPort then none
      else some (Nat.toDigits 10 origin.port.val)), PortDigits digits := by
    intro digits member
    split at member
    next => cases member
    next =>
      cases member
      exact portDigits_toDigits positive
  have length : (portText (if origin.port = origin.scheme.defaultPort then none
      else some (Nat.toDigits 10 origin.port.val))).length = portLength origin.scheme port := by
    cases port with
    | none =>
        rw [if_pos (Fin.ext value)]
        rfl
    | some digits =>
        have read : origin.port.val = portValue digits := value
        rw [portLength, ← read]
        by_cases default : origin.port = origin.scheme.defaultPort
        · rw [if_pos default, if_pos (congrArg Fin.val default)]
          rfl
        · rw [if_neg default, if_neg fun same => default (Fin.ext same)]
          rfl
  rw [EffectiveOrigin.serialise, folded, utf8ByteSize_visible fun character => visible_parts
    (fun _ own => (Scheme.letter (Scheme.parse_asStr _) own).1) (origin_foldHost.mpr characters)
    digits]
  simp only [List.length_append, length, foldHost_map, List.length_map, originLength]

/-- **The origin of a validated `Host` is read from its serialisation, just where the host
has only characters of an origin and the serialisation is within the bound.** -/
theorem HostPolicy.parse_effective_iff {policy : HostPolicy} {scheme : Scheme} {raw : String}
    {origin : EffectiveOrigin} (addressed : policy.effective scheme (some raw) = some origin) :
    EffectiveOrigin.parse origin.serialise = some origin ↔
      ∀ host port, HostParts raw host port →
        (∀ character ∈ host, OriginCharacter character) ∧
          originLength scheme host port ≤ maxOriginBytes := by
  rw [HostPolicy.parse_effective addressed]
  obtain ⟨⟨name, number⟩, validated, rfl⟩ := Option.map_eq_some_iff.mp addressed
  obtain ⟨⟨name', number'⟩, normal, allowed⟩ := Option.bind_eq_some_iff.mp validated
  simp only at allowed
  split at allowed
  next =>
    cases allowed
    obtain ⟨host, port, parts, folded, value⟩ := HostParts.of_normaliseHost normal
    have read : (number.getD scheme.defaultPort).val =
        (port.map portValue).getD scheme.defaultPort.val := by
      rw [value]
      cases number <;> rfl
    have length : (∀ character ∈ host, OriginCharacter character) → _ :=
      @EffectiveOrigin.serialise_length ⟨scheme, name, number.getD scheme.defaultPort⟩ host port
        parts.ports folded read
    simp only [folded, origin_foldHost]
    constructor
    · rintro ⟨characters, fits⟩ host' port' parts'
      obtain ⟨rfl, rfl⟩ := parts'.unique parts
      exact ⟨characters, (length characters).symm.trans_le fits⟩
    · intro all
      obtain ⟨characters, fits⟩ := all host port parts
      exact ⟨characters, (length characters).trans_le fits⟩
  next => cases allowed

/-! ## Which origins are read -/

/-- **Origins read from what they are written as.** A text is accepted just where it is an
origin, unless it writes a host that is misread. Two are equal where their schemes, hosts
and ports agree, and one that is read is read again from its serialisation. A normalised
host is normalised to itself unless a space ends it; and a request's own origin is read
from its serialisation where its host has only an origin's characters, within the bound. -/
theorem serialised_origins (text raw : String) (first second : SerialisedOrigin) :
    (((EffectiveOrigin.parse text).isSome = true ↔ IsOrigin text) ↔
      ∀ scheme host port, OriginParts text scheme host port → ¬MisreadHost host) ∧
    (EffectiveOrigin.parse first.text = EffectiveOrigin.parse second.text ↔
      first.scheme.map Char.toLower = second.scheme.map Char.toLower ∧
        SameHost first.host second.host ∧ first.effectivePort = second.effectivePort) ∧
    ((EffectiveOrigin.parse text).isSome = true →
      ∃ written : SerialisedOrigin, written.text = text) ∧
    (∀ origin, EffectiveOrigin.parse text = some origin →
      EffectiveOrigin.parse origin.serialise = some origin) ∧
    (∀ host port, normaliseHost raw = some (host, port) →
      (normaliseHost host = some (host, none) ↔ ∀ written digits, HostParts raw written digits →
        (written.rdropWhile (· = '.')).getLast? ≠ some ' ')) ∧
    ∀ (policy : HostPolicy) scheme origin, policy.effective scheme (some raw) = some origin →
      (EffectiveOrigin.parse origin.serialise = some origin ↔
        ∀ host port, HostParts raw host port →
          (∀ character ∈ host, OriginCharacter character) ∧
            originLength scheme host port ≤ maxOriginBytes) := by
  refine ⟨EffectiveOrigin.accepts_iff text, SerialisedOrigin.parse_eq_iff first second,
    fun accepted => ?_, fun origin parsed => ?_, fun host port => HostParts.normaliseHost_again_iff,
    fun policy scheme origin => HostPolicy.parse_effective_iff⟩
  · obtain ⟨origin, parsed⟩ := Option.isSome_iff_exists.mp accepted
    obtain ⟨written, same, _⟩ := EffectiveOrigin.parse_some parsed
    exact ⟨written, same⟩
  · obtain ⟨written, _, rfl⟩ := EffectiveOrigin.parse_some parsed
    exact written.parse_serialise

/-- Junk in brackets is accepted, and is no origin; a host that a space ends is not returned
again; a request's own origin may be none. -/
theorem hosts_let_through :
    ((EffectiveOrigin.parse "https://[junk]").isSome = true ∧ ¬IsOrigin "https://[junk]") ∧
    (normaliseHost "a ." = some ("a ", none) ∧ normaliseHost "a " = some ("a", none)) ∧
    ∃ policy, HostPolicy.denyAll.allow "a?b" = .ok policy ∧
      ∃ origin, policy.effective .http (some "a?b") = some origin ∧
        EffectiveOrigin.parse origin.serialise = none := by
  have parts : OriginParts "https://[junk]" "https".toList "[junk]".toList none :=
    { whole := by decide +kernel
      known := .inr (by decide +kernel)
      ports := fun _ member => by cases member
      bounded := by decide +kernel }
  refine ⟨⟨by decide +kernel, fun own => ?_⟩, ⟨by decide +kernel, by decide +kernel⟩, ⟨["a?b"]⟩,
    by rfl, ⟨.http, "a?b", 80⟩, by decide +kernel, by decide +kernel⟩
  rw [parts.isOrigin_iff (.inl ⟨"junk".toList, by decide, by decide⟩)] at own
  revert own
  unfold OriginHost
  decide +kernel

end Renvor
