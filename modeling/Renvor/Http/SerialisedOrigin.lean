import Mathlib.Data.Bool.AllAny
import Renvor.Http.Authority
import Renvor.Kernel.Address

/-! # Serialised origins

An origin is read from a scheme, a host and a port written one after the other, and from
nothing else (`Renvor.SerialisedOrigin.parse_text`, `Renvor.EffectiveOrigin.parse_some`).
Written again it is read as itself (`Renvor.EffectiveOrigin.parse_serialise`).
-/

namespace Renvor

/-- The canonical lowercase spelling. -/
def Scheme.asStr : Scheme → String
  | http => "http"
  | https => "https"

/-- The hosts that are served, normalised. -/
structure HostPolicy where
  allowed : List String

namespace HostPolicy

/-- The policy that lets no host through. -/
def denyAll : HostPolicy := ⟨[]⟩

/-- A configured value that is no host. -/
structure InvalidHost where
  host : String

/-- Allows one host, normalised as one that is received. -/
def allow (policy : HostPolicy) (host : String) : Except InvalidHost HostPolicy :=
  if ["://", "@", "/"].any fun offending =>
      (splitOnce offending.toList host.toList).isSome then .error ⟨host⟩
  else match normaliseHost host with
    | none => .error ⟨host⟩
    | some (normalised, _) => .ok ⟨policy.allowed.insert normalised⟩

/-- The host of a header and its port, where the policy allows it. -/
def validate (policy : HostPolicy) (raw : Option String) :
    Option (String × Option (Fin 65536)) := do
  let raw ← raw
  let (normalised, port) ← normaliseHost raw
  if policy.allowed.contains normalised then some (normalised, port) else none

/-- The origin that a request with a `Host` is addressed to. -/
def effective (policy : HostPolicy) (scheme : Scheme) (raw : Option String) :
    Option EffectiveOrigin :=
  (policy.validate raw).map fun (host, port) =>
    { scheme, host, port := port.getD scheme.defaultPort }

end HostPolicy

/-- An origin in ASCII: the port of the scheme is left out. -/
def EffectiveOrigin.serialise (origin : EffectiveOrigin) : String :=
  String.ofList (origin.scheme.asStr.toList ++ "://".toList ++ origin.host.toList ++
    portText (if origin.port = origin.scheme.defaultPort then none
      else some (Nat.toDigits 10 origin.port.val)))

/-- A printable character of ASCII that is no space. -/
def Visible (character : Char) : Prop := 0x20 < character.toNat ∧ character.toNat < 0x7F

instance (character : Char) : Decidable (Visible character) :=
  inferInstanceAs (Decidable (_ ∧ _))

/-- One that begins no other part of a URL. -/
def OriginCharacter (character : Char) : Prop :=
  Visible character ∧ character ∉ "@/\\?#".toList

instance (character : Char) : Decidable (OriginCharacter character) :=
  inferInstanceAs (Decidable (_ ∧ _))

/-- **A host that is accepted.** A text in brackets, or one without a colon that is
not only dots; of such characters. -/
structure AcceptedHost (host : List Char) : Prop where
  delimited : Delimited host
  named : ∃ character ∈ host, character ≠ '.'
  character : ∀ character ∈ host, OriginCharacter character

/-- **An origin as it is written**, within the bound. -/
structure SerialisedOrigin where
  scheme : List Char
  host : List Char
  port : Option (List Char)
  known : (Scheme.parse (String.ofList scheme)).isSome = true
  accepted : AcceptedHost host
  ports : ∀ digits ∈ port, PortDigits digits
  bounded : (String.ofList (scheme ++ "://".toList ++ host ++ portText port)).utf8ByteSize ≤
    maxOriginBytes

namespace SerialisedOrigin

variable (written : SerialisedOrigin)

/-- The text of an origin, with its port where it is written. -/
def text : String :=
  String.ofList (written.scheme ++ "://".toList ++ written.host ++ portText written.port)

/-- The scheme that is written. -/
def schemeRead : Scheme := (Scheme.parse (String.ofList written.scheme)).get written.known

/-- The port that is written, or that of the scheme. -/
def effectivePort : Nat := (written.port.map portValue).getD written.schemeRead.defaultPort.val

end SerialisedOrigin

/-! ## Reading -/

/-- A text is split at a separator whose first character does not stand before it. -/
theorem splitOnce_append {mark : Char} {separator front back : List Char} (absent : mark ∉ front) :
    splitOnce (mark :: separator) (front ++ mark :: separator ++ back) = some (front, back) := by
  induction front with
  | nil =>
      rw [List.nil_append, List.cons_append, splitOnce, if_pos (by simp)]
      simp
  | cons character rest ih =>
      rw [List.mem_cons, not_or] at absent
      rw [List.cons_append, List.cons_append, splitOnce, if_neg (by simp [absent.1]), ih absent.2]
      rfl

/-- A scheme is read from its letters in any case, and from nothing else. -/
theorem Scheme.parse_iff {text : List Char} {scheme : Scheme} :
    Scheme.parse (String.ofList text) = some scheme ↔
      text.map Char.toLower = scheme.asStr.toList := by
  have http : eqIgnoreAsciiCase (String.ofList text) "http" = true ↔
      text.map Char.toLower = "http".toList := by
    rw [eqIgnoreAsciiCase, String.toList_ofList, decide_eq_true_eq]
    rfl
  have https : eqIgnoreAsciiCase (String.ofList text) "https" = true ↔
      text.map Char.toLower = "https".toList := by
    rw [eqIgnoreAsciiCase, String.toList_ofList, decide_eq_true_eq]
    rfl
  unfold Scheme.parse
  simp only [http, https]
  cases scheme with
  | http =>
      show _ ↔ text.map Char.toLower = "http".toList
      by_cases plain : text.map Char.toLower = "http".toList
      · simp [plain]
      · rw [if_neg plain]
        refine iff_of_false ?_ plain
        split <;> exact fun same => nomatch same
  | https =>
      show _ ↔ text.map Char.toLower = "https".toList
      by_cases secure : text.map Char.toLower = "https".toList
      · rw [secure, if_neg (by decide)]
        simp
      · rw [if_neg secure]
        refine iff_of_false ?_ secure
        split <;> exact fun same => nomatch same

/-- The text of a scheme is read back. -/
theorem Scheme.parse_asStr (scheme : Scheme) :
    Scheme.parse (String.ofList scheme.asStr.toList) = some scheme :=
  Scheme.parse_iff.mpr (by cases scheme <;> rfl)

/-- The characters of a scheme are letters. -/
theorem Scheme.letter {text : List Char} {scheme : Scheme}
    (parsed : Scheme.parse (String.ofList text) = some scheme) {character : Char}
    (member : character ∈ text) : Visible character ∧ character ≠ ':' := by
  have lowered : character.toLower ∈ scheme.asStr.toList := by
    rw [← Scheme.parse_iff.mp parsed]
    exact List.mem_map_of_mem member
  have letter : 0x61 ≤ character.toLower.toNat ∧ character.toLower.toNat ≤ 0x7A := by
    have all : ∀ scheme : Scheme, ∀ letter ∈ scheme.asStr.toList,
        0x61 ≤ letter.toNat ∧ letter.toNat ≤ 0x7A := by
      intro scheme
      cases scheme <;> exact List.all_iff_forall_prop.mp rfl
    exact all scheme _ lowered
  unfold Visible
  refine ⟨?_, ?_⟩
  · rcases toLower_cases character with ⟨same, _⟩ | ⟨upper, _⟩
    · rw [same] at letter
      omega
    · omega
  · rintro rfl
    exact absurd letter (by decide)

/-- A visible character is a printable one. -/
theorem Visible.plain {character : Char} (visible : Visible character) :
    PrintableAscii character := by
  unfold Visible at visible
  rw [printableAscii_iff]
  omega

/-- A visible character is no blank. -/
theorem Visible.not_blank {character : Char} (visible : Visible character) :
    isWhitespace character = false := by
  rw [← Bool.not_eq_true, visible.plain.isWhitespace]
  rintro rfl
  exact absurd visible (by decide)

/-- A character is visible exactly where the parser finds nothing to refuse in it. -/
theorem visible_iff {character : Char} :
    Visible character ↔ (!isAscii character || isControl character || character = ' ') = false := by
  have code : character = ' ' ↔ character.toNat = 0x20 := by
    constructor
    · rintro rfl
      rfl
    · intro code
      exact Char.ext (UInt32.toNat_inj.mp code)
  simp only [Bool.or_eq_false_iff, Bool.not_eq_false', decide_eq_false_iff_not, code, Visible,
    isAscii, isControl, decide_eq_true_eq, Bool.and_eq_false_iff]
  omega

/-- The digits of a port are characters of an origin. -/
theorem PortDigits.visible {digits : List Char} (written : PortDigits digits) {character : Char}
    (member : character ∈ digits) : OriginCharacter character := by
  have digit := written.digit character member
  simp only [isAsciiDigit, Bool.and_eq_true, decide_eq_true_eq, Char.le_def,
    UInt32.le_iff_toNat_le] at digit
  change 48 ≤ character.toNat ∧ character.toNat ≤ 57 at digit
  refine ⟨⟨by omega, by omega⟩, fun other => ?_⟩
  have outside : ∀ mark ∈ "@/\\?#".toList, ¬(48 ≤ mark.toNat ∧ mark.toNat ≤ 57) :=
    List.all_iff_forall_prop.mp rfl
  exact outside character other digit

/-- A written port, with its colon, has characters of an origin only. -/
theorem portText_character {port : Option (List Char)}
    (ports : ∀ digits ∈ port, PortDigits digits) {character : Char}
    (member : character ∈ portText port) : OriginCharacter character := by
  cases port with
  | none => cases member
  | some digits =>
      rcases List.mem_cons.mp member with rfl | digit
      · decide
      · exact (ports digits rfl).visible digit

/-- An origin whose parts are visible is visible. -/
theorem visible_parts {scheme host : List Char} {port : Option (List Char)}
    (letters : ∀ character ∈ scheme, Visible character)
    (hosts : ∀ character ∈ host, OriginCharacter character)
    (ports : ∀ digits ∈ port, PortDigits digits) {character : Char}
    (member : character ∈ scheme ++ "://".toList ++ host ++ portText port) : Visible character := by
  rw [List.mem_append, List.mem_append, List.mem_append] at member
  rcases member with ((letter | between) | own) | digit
  · exact letters character letter
  · have all : ∀ mark ∈ "://".toList, Visible mark := List.all_iff_forall_prop.mp rfl
    exact all character between
  · exact (hosts character own).1
  · exact (portText_character ports digit).1

/-- A visible text has as many bytes as characters. -/
theorem utf8ByteSize_visible {text : List Char} (visible : ∀ character ∈ text, Visible character) :
    (String.ofList text).utf8ByteSize = text.length := by
  refine utf8ByteSize_ofList fun character member => ?_
  rw [Char.utf8Size_eq_one_iff, UInt32.le_iff_toNat_le]
  exact Nat.le_of_lt_succ (Nat.lt_succ_of_lt (visible character member).2)

namespace SerialisedOrigin

variable (written : SerialisedOrigin)

/-- The scheme of an origin is read as the one it is. -/
theorem scheme_parsed :
    Scheme.parse (String.ofList written.scheme) = some written.schemeRead :=
  (Option.some_get written.known).symm

/-- The port of an origin is a port, whether it is written or the one of the scheme. -/
theorem effectivePort_lt : written.effectivePort < 65536 := by
  unfold effectivePort
  cases port : written.port with
  | none => exact written.schemeRead.defaultPort.isLt
  | some digits => exact (written.ports digits port).fits

/-- The origin it is. -/
def origin : EffectiveOrigin :=
  { scheme := written.schemeRead
    host := String.ofList (foldHost written.host)
    port := ⟨written.effectivePort, written.effectivePort_lt⟩ }

/-- The host and the port have characters of an origin only. -/
theorem authority_character {character : Char}
    (member : character ∈ written.host ++ portText written.port) : OriginCharacter character := by
  rcases List.mem_append.mp member with host | port
  · exact written.accepted.character character host
  · exact portText_character written.ports port

/-- The characters of the text, part by part. -/
theorem toList_text : written.text.toList =
    written.scheme ++ "://".toList ++ written.host ++ portText written.port :=
  String.toList_ofList

/-- The text of an origin is visible. -/
theorem visible_text {character : Char} (member : character ∈ written.text.toList) :
    Visible character := by
  rw [toList_text] at member
  exact visible_parts (fun _ own => (Scheme.letter written.scheme_parsed own).1)
    written.accepted.character written.ports member

/-- The normaliser splits the authority of an origin into its host, folded, and its port. -/
theorem normaliseHost_authority :
    normaliseHost (String.ofList (written.host ++ portText written.port)) =
      some (String.ofList (foldHost written.host),
        written.port.map fun digits => Fin.ofNat 65536 (portValue digits)) := by
  have blank : ∀ character ∈ written.host ++ portText written.port,
      isWhitespace character = false :=
    fun character member => (written.authority_character member).1.not_blank
  have trimmed := trim_clean (fun character first => blank character (List.mem_of_mem_head? first))
    fun character last => blank character (List.mem_of_mem_getLast? last)
  rw [normaliseHost_iff, trimmed, String.toList_ofList]
  refine ⟨fun character member => (written.authority_character member).1.plain, written.host,
    written.port, rfl, written.accepted.delimited, written.ports, ?_, ?_, rfl⟩
  · cases digits : written.port with
    | none => rfl
    | some text => exact congrArg some (Nat.mod_eq_of_lt (written.ports text digits).fits).symm
  · obtain ⟨character, member, other⟩ := written.accepted.named
    rw [foldHost_rdropWhile, Ne, List.rdropWhile_eq_nil_iff]
    intro dots
    have dot := dots _ (List.mem_map_of_mem member)
    rw [decide_eq_true_eq, toLower_caseless (by decide)] at dot
    exact other dot

/-- **What is written is read.** -/
theorem parse_text : EffectiveOrigin.parse written.text = some written.origin := by
  have nonempty : written.text.isEmpty = false := by
    rw [String.isEmpty_eq_false_iff, Ne, ← String.toList_eq_nil_iff, toList_text]
    simp
  have fits : ¬maxOriginBytes < written.text.utf8ByteSize := Nat.not_lt.mpr written.bounded
  have clean : written.text.toList.any (fun character =>
      !isAscii character || isControl character || character = ' ') = false := by
    rw [List.any_eq_false]
    intro character member
    rw [visible_iff.mp (written.visible_text member)]
    decide
  have split : splitOnce "://".toList written.text.toList =
      some (written.scheme, written.host ++ portText written.port) := by
    rw [toList_text, List.append_assoc]
    exact splitOnce_append fun member =>
      (Scheme.letter written.scheme_parsed member).2 rfl
  obtain ⟨named, hosts, _⟩ := written.accepted.named
  have authority : ¬((written.host ++ portText written.port).isEmpty ||
      (written.host ++ portText written.port).any "@/\\?#".toList.contains) = true := by
    rw [Bool.or_eq_true, not_or, List.isEmpty_iff, Bool.not_eq_true, List.any_eq_false]
    refine ⟨List.append_ne_nil_of_left_ne_nil (List.ne_nil_of_mem hosts) _, ?_⟩
    intro character member
    rw [List.contains_iff_mem]
    exact (written.authority_character member).2
  unfold EffectiveOrigin.parse
  rw [nonempty, clean, split, Bool.false_or, if_neg (by simpa using fits),
    if_neg Bool.false_ne_true]
  show (Scheme.parse (String.ofList written.scheme)).bind _ = _
  rw [written.scheme_parsed, Option.bind_some, if_neg authority, normaliseHost_authority]
  refine congrArg some ?_
  rw [origin, EffectiveOrigin.mk.injEq]
  refine ⟨rfl, rfl, Fin.ext ?_⟩
  show _ = (written.port.map portValue).getD _
  cases digits : written.port with
  | none => rfl
  | some text => exact Nat.mod_eq_of_lt (written.ports text digits).fits

end SerialisedOrigin

/-! ## Nothing else is read -/

/-- A host that is not empty once folded has a character other than a dot. -/
theorem named_foldHost {host : List Char} (named : foldHost host ≠ []) :
    ∃ character ∈ foldHost host, character ≠ '.' := by
  have last := List.rdropWhile_last_not (· = '.') (host.map Char.toLower) named
  exact ⟨_, List.getLast_mem named, fun dot => last (decide_eq_true dot)⟩

/-- Folding leaves a host empty exactly where it is all dots. -/
theorem foldHost_ne_nil {host : List Char} :
    foldHost host ≠ [] ↔ ∃ character ∈ host, character ≠ '.' := by
  constructor
  · intro named
    obtain ⟨character, member, other⟩ := named_foldHost named
    obtain ⟨written, own, rfl⟩ := mem_foldHost member
    exact ⟨written, own, fun dot => other ((toLower_caseless (by decide)).mpr dot)⟩
  · rintro ⟨character, member, other⟩ none
    rw [foldHost_rdropWhile, List.rdropWhile_eq_nil_iff] at none
    have dot := none _ (List.mem_map_of_mem member)
    rw [decide_eq_true_eq, toLower_caseless (by decide)] at dot
    exact other dot

/-- The lower case of a character of an origin is one. -/
theorem OriginCharacter.lower {character : Char} (own : OriginCharacter character) :
    OriginCharacter character.toLower := by
  obtain ⟨visible, other⟩ := own
  unfold Visible at visible
  refine ⟨?_, fun member => other ?_⟩
  · unfold Visible
    rcases toLower_cases character with ⟨same, _⟩ | ⟨upper, lower⟩
    · rw [same]
      exact visible
    · omega
  · have caseless : ∀ mark ∈ "@/\\?#".toList, Caseless mark := List.all_iff_forall_prop.mp rfl
    rw [(toLower_caseless (caseless _ member)).mp rfl]
    exact member

/-- A host that is accepted stays accepted once folded. -/
theorem AcceptedHost.fold {host : List Char} (accepted : AcceptedHost host) :
    AcceptedHost (foldHost host) where
  delimited := accepted.delimited.fold
  named := named_foldHost (foldHost_ne_nil.mpr accepted.named)
  character := by
    intro character member
    obtain ⟨written, own, rfl⟩ := mem_foldHost member
    exact (accepted.character written own).lower

/-- **Nothing is read but what is written so.** -/
theorem EffectiveOrigin.parse_some {text : String} {origin : EffectiveOrigin}
    (parsed : EffectiveOrigin.parse text = some origin) :
    ∃ written : SerialisedOrigin, written.text = text ∧ written.origin = origin := by
  have whole := parsed
  unfold EffectiveOrigin.parse at parsed
  split at parsed
  next => cases parsed
  next fits =>
    split at parsed
    next => cases parsed
    next clean =>
      obtain ⟨⟨scheme, authority⟩, split, parsed⟩ := Option.bind_eq_some_iff.mp parsed
      obtain ⟨known, read, parsed⟩ := Option.bind_eq_some_iff.mp parsed
      split at parsed
      next => cases parsed
      next plain =>
        obtain ⟨⟨host, port⟩, normal, _⟩ := Option.bind_eq_some_iff.mp parsed
        rw [Bool.not_eq_true, List.any_eq_false] at clean
        rw [Bool.or_eq_true, not_or, decide_eq_true_eq, Nat.not_lt] at fits
        rw [Bool.or_eq_true, not_or, Bool.not_eq_true (List.any _ _), List.any_eq_false] at plain
        have parts := splitOnce_some split
        have visible : ∀ character ∈ text.toList, Visible character := by
          intro character member
          rw [visible_iff, ← Bool.not_eq_true]
          exact clean character member
        have own : ∀ character ∈ authority, OriginCharacter character := by
          intro character member
          refine ⟨visible character (parts ▸ List.mem_append_right _ member), ?_⟩
          have outside := plain.2 character member
          rwa [List.contains_iff_mem] at outside
        have blank : ∀ character ∈ authority, isWhitespace character = false :=
          fun character member => (own character member).1.not_blank
        have trimmed := trim_clean
          (fun character first => blank character (List.mem_of_mem_head? first))
          fun character last => blank character (List.mem_of_mem_getLast? last)
        obtain ⟨_, written, digits, rfl, delimited, ports, _, named, _⟩ :
            _ ∧ ∃ written digits, authority = written ++ portText digits ∧ _ := by
          have facts := normaliseHost_iff.mp normal
          rwa [trimmed, String.toList_ofList] at facts
        let found : SerialisedOrigin :=
          { scheme, host := written, port := digits
            known := Option.isSome_iff_exists.mpr ⟨known, read⟩
            accepted :=
              { delimited
                named := foldHost_ne_nil.mp named
                character := fun character member =>
                  own character (List.mem_append_left _ member) }
            ports
            bounded := by
              rw [List.append_assoc, ← parts, String.ofList_toList]
              exact fits.2 }
        have same : found.text = text := by
          rw [← String.toList_inj, found.toList_text, parts, List.append_assoc]
        refine ⟨found, same, ?_⟩
        have again := found.parse_text
        rw [same, whole] at again
        exact (Option.some.inj again).symm

/-- An origin of a folded host is read from what it is written as, just where the host
is accepted and the text fits. -/
theorem EffectiveOrigin.parse_serialise_iff {origin : EffectiveOrigin}
    (folded : foldHost origin.host.toList = origin.host.toList) (positive : 0 < origin.port.val) :
    EffectiveOrigin.parse origin.serialise = some origin ↔
      AcceptedHost origin.host.toList ∧ origin.serialise.utf8ByteSize ≤ maxOriginBytes := by
  constructor
  · intro parsed
    obtain ⟨written, text, rfl⟩ := EffectiveOrigin.parse_some parsed
    refine ⟨?_, ?_⟩
    · rw [SerialisedOrigin.origin, String.toList_ofList]
      exact written.accepted.fold
    · rw [← text]
      exact written.bounded
  · rintro ⟨accepted, fits⟩
    let found : SerialisedOrigin :=
      { scheme := origin.scheme.asStr.toList
        host := origin.host.toList
        port := if origin.port = origin.scheme.defaultPort then none
          else some (Nat.toDigits 10 origin.port.val)
        known := Option.isSome_iff_exists.mpr ⟨origin.scheme, Scheme.parse_asStr origin.scheme⟩
        accepted
        ports := by
          intro digits member
          split at member
          next => cases member
          next =>
            cases member
            exact portDigits_toDigits positive
        bounded := fits }
    have scheme : found.schemeRead = origin.scheme :=
      Option.some.inj (found.scheme_parsed.symm.trans (Scheme.parse_asStr origin.scheme))
    have port : found.effectivePort = origin.port.val := by
      rw [SerialisedOrigin.effectivePort, scheme]
      by_cases default : origin.port = origin.scheme.defaultPort
      · rw [show found.port = none from if_pos default, default]
        rfl
      · rw [show found.port = some _ from if_neg default]
        exact Nat.ofDigitChars_ten_toDigits
    have same : found.origin = origin := by
      rw [SerialisedOrigin.origin, EffectiveOrigin.mk.injEq]
      exact ⟨scheme, by rw [folded, String.ofList_toList], Fin.ext port⟩
    have read := found.parse_text
    rw [same] at read
    exact read

namespace SerialisedOrigin

variable (written : SerialisedOrigin)

/-- The port of an origin is not zero. -/
theorem effectivePort_pos : 0 < written.effectivePort := by
  unfold effectivePort
  cases digits : written.port with
  | none => cases written.schemeRead <;> decide
  | some text => exact (written.ports text digits).positive

/-- Written again, an origin is no longer. -/
theorem serialise_fits : written.origin.serialise.utf8ByteSize ≤ maxOriginBytes := by
  have lowered := Scheme.parse_iff.mp written.scheme_parsed
  have scheme : written.schemeRead.asStr.toList.length = written.scheme.length := by
    rw [← lowered, List.length_map]
  have host : (foldHost written.host).length ≤ written.host.length := by
    rw [foldHost_rdropWhile]
    exact ( List.rdropWhile_prefix _ (written.host.map Char.toLower)).length_le.trans_eq
      (List.length_map _)
  let port := if written.origin.port = written.schemeRead.defaultPort then none
    else some (Nat.toDigits 10 written.effectivePort)
  have ports : ∀ digits ∈ port, PortDigits digits := by
    intro digits member
    dsimp only [port] at member
    split at member
    next => cases member
    next =>
      cases member
      have positive : 0 < written.origin.port.val := written.effectivePort_pos
      exact portDigits_toDigits positive
  have shorter : (portText port).length ≤ (portText written.port).length := by
    dsimp only [port]
    split
    next => exact Nat.zero_le _
    next other =>
      cases digits : written.port with
      | none =>
          refine absurd (Fin.ext ?_) other
          show written.effectivePort = _
          rw [effectivePort, digits]
          rfl
      | some text =>
          have value : written.effectivePort = portValue text := by
            rw [effectivePort, digits]
            rfl
          rw [value]
          exact Nat.succ_le_succ (length_toDigits_le (written.ports text digits))
  have fits := written.bounded
  rw [utf8ByteSize_visible fun character => visible_parts
    (fun _ own => (Scheme.letter written.scheme_parsed own).1) written.accepted.character
    written.ports] at fits
  have text : written.origin.serialise = String.ofList (written.schemeRead.asStr.toList ++
      "://".toList ++ foldHost written.host ++ portText port) := by
    rw [EffectiveOrigin.serialise, show written.origin.host.toList = foldHost written.host from
      String.toList_ofList]
    rfl
  rw [text, utf8ByteSize_visible fun character => visible_parts
    (fun _ own => (Scheme.letter (Scheme.parse_asStr _) own).1) written.accepted.fold.character
    ports]
  simp only [List.length_append] at fits ⊢
  omega

/-- **An origin that is read, written again, is read as itself.** -/
theorem parse_serialise :
    EffectiveOrigin.parse written.origin.serialise = some written.origin := by
  have host : written.origin.host.toList = foldHost written.host := String.toList_ofList
  rw [EffectiveOrigin.parse_serialise_iff (by rw [host, foldHost_foldHost])
    written.effectivePort_pos, host]
  exact ⟨written.accepted.fold, written.serialise_fits⟩

/-- **Two origins are read as equal just where their schemes, their hosts and their
effective ports agree.** -/
theorem parse_eq_iff (first second : SerialisedOrigin) :
    EffectiveOrigin.parse first.text = EffectiveOrigin.parse second.text ↔
      first.scheme.map Char.toLower = second.scheme.map Char.toLower ∧
        SameHost first.host second.host ∧ first.effectivePort = second.effectivePort := by
  have schemes : first.scheme.map Char.toLower = second.scheme.map Char.toLower ↔
      first.schemeRead = second.schemeRead := by
    rw [Scheme.parse_iff.mp first.scheme_parsed, Scheme.parse_iff.mp second.scheme_parsed]
    cases first.schemeRead <;> cases second.schemeRead <;> decide
  rw [first.parse_text, second.parse_text, Option.some.injEq, origin, origin,
    EffectiveOrigin.mk.injEq, schemes, sameHost_iff, String.ofList_inj, Fin.mk.injEq]

end SerialisedOrigin

/-! ## A request's own origin -/

/-- **The origin of a validated `Host` is read from what it is written as, just where its
host has only characters of an origin and the text fits.** -/
theorem HostPolicy.parse_effective {policy : HostPolicy} {scheme : Scheme} {raw : Option String}
    {origin : EffectiveOrigin} (addressed : policy.effective scheme raw = some origin) :
    EffectiveOrigin.parse origin.serialise = some origin ↔
      (∀ character ∈ origin.host.toList, OriginCharacter character) ∧
        origin.serialise.utf8ByteSize ≤ maxOriginBytes := by
  obtain ⟨⟨host, port⟩, validated, rfl⟩ := Option.map_eq_some_iff.mp addressed
  obtain ⟨text, _, validated⟩ := Option.bind_eq_some_iff.mp validated
  obtain ⟨⟨host', port'⟩, normal, allowed⟩ := Option.bind_eq_some_iff.mp validated
  simp only at allowed
  split at allowed
  next =>
    cases allowed
    obtain ⟨_, written, digits, _, delimited, ports, value, named, rfl⟩ :=
      normaliseHost_iff.mp normal
    have positive : 0 < (port.getD scheme.defaultPort).val := by
      cases port with
      | none => cases scheme <;> decide
      | some number =>
          obtain ⟨text, own, same⟩ := Option.map_eq_some_iff.mp value
          show 0 < number.val
          rw [← same]
          exact (ports text own).positive
    rw [EffectiveOrigin.parse_serialise_iff]
    · rw [String.toList_ofList]
      refine and_congr_left fun _ => ⟨fun accepted => accepted.character, fun own => ?_⟩
      exact ⟨delimited.fold, named_foldHost named, own⟩
    · rw [String.toList_ofList, foldHost_foldHost]
    · exact positive
  next => cases allowed

end Renvor
