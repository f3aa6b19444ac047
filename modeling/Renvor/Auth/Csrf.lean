import Mathlib.Data.Set.Function
import Mathlib.Tactic.IntervalCases
import Renvor.Auth.Opaque
import Renvor.Kernel.Text

/-! # CSRF tokens

A token is a keyed hash over the digest of its session and a random value, and
that value. The hash is a parameter. A token that is accepted for a session is
one made for it (`Renvor.Csrf.verify_ok`).
-/

namespace Renvor

/-- Thirty-two bytes. -/
abbrev ThirtyTwo := { bytes : List Byte // bytes.length = 32 }

structure CsrfKey where
  bytes : ThirtyTwo

/-- A keyed hash of texts. -/
abbrev Mac := CsrfKey → String → ThirtyTwo

/-- A token in its wire form. -/
structure CsrfToken where
  wire : String

inductive CsrfRejection
  | absent | duplicated | malformed | mismatched

/-- What authenticated a request. -/
inductive Credential
  | cookie | bearerToken
  deriving DecidableEq

inductive RequestKind
  | safe | stateChanging
  deriving DecidableEq

namespace Csrf

/-- Classifies a method, by its exact spelling. -/
def classify (method : String) : RequestKind :=
  if ["GET", "HEAD", "OPTIONS", "TRACE"].contains method then .safe else .stateChanging

/-- Whether a request must carry a token. -/
def isRequired (method : String) (credential : Credential) : Bool :=
  credential = .cookie && classify method = .stateChanging

def hex (bytes : List Byte) : String := String.ofList (bytes.flatMap Byte.hex)

/-- Thirty-two bytes of lowercase hexadecimal digits. -/
def unhex (text : String) : Option ThirtyTwo :=
  if text.utf8ByteSize ≠ 64 then none
  else do
    let bytes ← hexBytes text.toList
    if width : bytes.length = 32 then some ⟨bytes, width⟩ else none

/-- The text that is hashed. -/
def message (sessionHex randomHex : String) : String :=
  toString sessionHex.utf8ByteSize ++ "!" ++ sessionHex ++ "!" ++
    toString randomHex.utf8ByteSize ++ "!" ++ randomHex

variable (mac : Mac) (key : CsrfKey)

/-- The hash over a session and a random value. -/
def sign (session : SecretDigest) (random : ThirtyTwo) : ThirtyTwo :=
  mac key (message (hex session.bytes) (hex random.val))

/-- The token of a session and a random value. -/
def token (session : SecretDigest) (random : ThirtyTwo) : CsrfToken :=
  ⟨hex (sign mac key session random).val ++ "." ++ hex random.val⟩

/-- Makes a token for a session. -/
def issue (session : SecretDigest) (draw : Option ThirtyTwo) : Except AuthError CsrfToken := do
  let random ← drawn draw
  return token mac key session random

/-- Checks the tokens a request presented for a session. -/
def verify (session : SecretDigest) : List String → Except CsrfRejection Unit
  | [] => .error .absent
  | [presented] => match splitOnce ['.'] presented.toList with
      | none => .error .malformed
      | some (macHex, randomHex) => match unhex (String.ofList macHex) with
          | none => .error .malformed
          | some presentedMac =>
              if (unhex (String.ofList randomHex)).isNone then .error .malformed
              else if mac key (message (hex session.bytes) (String.ofList randomHex)) = presentedMac
              then .ok ()
              else .error .mismatched
  | _ :: _ :: _ => .error .duplicated

end Csrf

/-! ## Digits -/

theorem hexDigit_code {code : Nat} (digit : 48 ≤ code ∧ code ≤ 57) :
    hexDigit (Fin.ofNat 16 (code - 48)) = Char.ofNat code := by
  obtain ⟨low, high⟩ := digit
  interval_cases code <;> rfl

theorem hexDigit_letter {code : Nat} (letter : 97 ≤ code ∧ code ≤ 102) :
    hexDigit (Fin.ofNat 16 (code - 97 + 10)) = Char.ofNat code := by
  obtain ⟨low, high⟩ := letter
  interval_cases code <;> rfl

theorem hexValue_some {character : Char} {nibble : Fin 16}
    (value : hexValue character = some nibble) : character = hexDigit nibble := by
  unfold hexValue at value
  split at value
  next digit =>
    cases value
    exact (Char.ofNat_toNat character).symm.trans (hexDigit_code digit).symm
  next =>
    split at value
    next letter =>
      cases value
      exact (Char.ofNat_toNat character).symm.trans (hexDigit_letter letter).symm
    next => cases value

/-- A byte is its two digits. -/
theorem Byte.hex_digits (high low : Fin 16) :
    Byte.hex (Fin.ofNat 256 (high.val * 16 + low.val)) = [hexDigit high, hexDigit low] := by
  have top : (high.val * 16 + low.val) % 256 / 16 = high.val := by omega
  have bottom : (high.val * 16 + low.val) % 256 % 16 = low.val := by omega
  simp [Byte.hex, top, bottom]

/-- Digits that are read are those that render the bytes. -/
theorem hexBytes_some {text : List Char} {bytes : List Byte} (read : hexBytes text = some bytes)
    (even : text.length = bytes.length * 2) : text = bytes.flatMap Byte.hex := by
  fun_induction hexBytes text generalizing bytes with
  | case1 high low rest ih =>
      simp only [Option.bind_eq_bind, Option.bind_eq_some_iff, Option.pure_def] at read
      obtain ⟨top, one, bottom, two, others, three, whole⟩ := read
      cases whole
      have rest : rest.length = others.length * 2 := by
        simp only [List.length_cons] at even
        omega
      rw [List.flatMap_cons, Byte.hex_digits, ← hexValue_some one, ← hexValue_some two,
        ih three rest]
      rfl
  | case2 text short =>
      cases read
      exact List.eq_nil_of_length_eq_zero even

theorem hexBytes_length {text : List Char} {bytes : List Byte} (read : hexBytes text = some bytes) :
    bytes.length = text.length / 2 := by
  fun_induction hexBytes text generalizing bytes with
  | case1 high low rest ih =>
      simp only [Option.bind_eq_bind, Option.bind_eq_some_iff, Option.pure_def] at read
      obtain ⟨_, _, _, _, others, three, whole⟩ := read
      cases whole
      rw [List.length_cons, ih three, List.length_cons, List.length_cons]
      omega
  | case2 text short =>
      cases read
      match text with
      | [] | [_] => simp
      | high :: low :: rest => exact (short high low rest rfl).elim

theorem length_le_utf8ByteSize (text : List Char) :
    text.length ≤ (String.ofList text).utf8ByteSize := by
  induction text with
  | nil => exact Nat.zero_le _
  | cons character rest ih =>
      have positive := character.utf8Size_pos
      rw [String.ofList_cons, String.utf8ByteSize_append, List.length_cons]
      simp only [String.utf8ByteSize_singleton]
      omega

namespace Csrf

theorem hex_utf8ByteSize (bytes : List Byte) : (hex bytes).utf8ByteSize = bytes.length * 2 :=
  hex_utf8Len bytes

/-- Thirty-two bytes read back. -/
theorem unhex_hex (bytes : ThirtyTwo) : unhex (hex bytes.val) = some bytes := by
  unfold unhex
  rw [hex_utf8ByteSize, bytes.property, if_neg (by decide), hex, String.toList_ofList, hexBytes_hex]
  simp [bytes.property]

/-- What is read is what renders the bytes. -/
theorem unhex_some {text : String} {bytes : ThirtyTwo} (read : unhex text = some bytes) :
    text = hex bytes.val := by
  unfold unhex at read
  split at read
  next => cases read
  next wide =>
    obtain ⟨digits, three, sized⟩ := Option.bind_eq_some_iff.mp read
    split at sized
    next width =>
      cases sized
      have short := length_le_utf8ByteSize text.toList
      rw [String.ofList_toList, not_not.mp wide] at short
      have length := hexBytes_length three
      show text = String.ofList _
      rw [← hexBytes_some three (by omega), String.ofList_toList]
    next => cases sized

theorem hex_inj {left right : ThirtyTwo} (same : hex left.val = hex right.val) : left = right := by
  have read : unhex (hex left.val) = unhex (hex right.val) := congrArg unhex same
  rw [unhex_hex, unhex_hex] at read
  exact Option.some.inj read

theorem toList_hex (bytes : List Byte) : (hex bytes).toList = bytes.flatMap Byte.hex :=
  String.toList_ofList

theorem length_hex (bytes : List Byte) : (hex bytes).toList.length = bytes.length * 2 := by
  rw [toList_hex]
  induction bytes with
  | nil => rfl
  | cons byte rest ih =>
      rw [List.flatMap_cons, List.length_append, ih]
      show 2 + rest.length * 2 = (rest.length + 1) * 2
      omega

theorem dot_not_mem_hex (bytes : List Byte) : '.' ∉ (hex bytes).toList := by
  rw [toList_hex]
  intro member
  obtain ⟨byte, _, digit⟩ := List.mem_flatMap.mp member
  have different : ∀ nibble, hexDigit nibble ≠ '.' := by decide
  simp only [Byte.hex, List.mem_cons, List.not_mem_nil, or_false] at digit
  obtain same | same := digit
  · exact different _ same.symm
  · exact different _ same.symm

/-- **Sessions and random values make different texts.** -/
theorem message_inj {session other random another : ThirtyTwo}
    (same : message (hex session.val) (hex random.val) = message (hex other.val) (hex another.val)) :
    session = other ∧ random = another := by
  unfold message at same
  simp only [hex_utf8ByteSize, session.property, other.property, random.property,
    another.property] at same
  have texts := congrArg String.toList same
  simp only [String.toList_append, List.append_assoc] at texts
  have rest := List.append_cancel_left (List.append_cancel_left texts)
  have sizes : (hex session.val).toList.length = (hex other.val).toList.length := by
    rw [length_hex, length_hex, session.property, other.property]
  obtain ⟨sessions, rest⟩ := List.append_inj rest sizes
  have randoms := List.append_cancel_left (List.append_cancel_left (List.append_cancel_left rest))
  exact ⟨hex_inj (String.toList_inj.mp sessions), hex_inj (String.toList_inj.mp randoms)⟩

variable {mac : Mac} {key : CsrfKey} {session : SecretDigest}

/-- A token's two halves. -/
theorem splitOnce_token (random : ThirtyTwo) :
    splitOnce ['.'] (token mac key session random).wire.toList =
      some ((hex (sign mac key session random).val).toList, (hex random.val).toList) := by
  show splitOnce ['.'] (hex _ ++ "." ++ hex _).toList = _
  rw [String.toList_append, String.toList_append, List.append_assoc]
  exact splitOnce_cons (dot_not_mem_hex _)

/-- **The tokens that are accepted for a session are those made for it.** -/
theorem verify_ok {presented : List String} : verify mac key session presented = .ok () ↔
    ∃ random, presented = [(token mac key session random).wire] := by
  constructor
  · intro accepted
    match presented with
    | [] => cases accepted
    | _ :: _ :: _ => cases accepted
    | [text] =>
        unfold verify at accepted
        dsimp only at accepted
        split at accepted
        next => cases accepted
        next macHex randomHex parts =>
          split at accepted
          next => cases accepted
          next presentedMac hashed =>
            split at accepted
            next => cases accepted
            next drawn =>
              split at accepted
              next checks =>
                obtain ⟨random, read⟩ : ∃ random, unhex (String.ofList randomHex) = some random := by
                  rw [Bool.not_eq_true, Option.isNone_eq_false_iff] at drawn
                  exact Option.isSome_iff_exists.mp drawn
                have front := unhex_some hashed
                have back := unhex_some read
                refine ⟨random, ?_⟩
                rw [back] at checks
                rw [← checks] at front
                have whole := splitOnce_some parts
                rw [← String.ofList_toList (s := text), whole, String.ofList_append,
                  String.ofList_append, front, back]
                rfl
              next => cases accepted
  · rintro ⟨random, rfl⟩
    unfold verify
    dsimp only
    rw [splitOnce_token]
    dsimp only
    rw [String.ofList_toList, String.ofList_toList, unhex_hex, unhex_hex]
    exact if_pos rfl

/-- Sessions with one random value have different hashes. -/
def Separates (mac : Mac) (key : CsrfKey) : Prop :=
  ∀ random : ThirtyTwo, Set.InjOn (mac key)
    (Set.range fun session : SecretDigest => message (hex session.bytes) (hex random.val))

theorem message_digest {session other : SecretDigest} {random another : ThirtyTwo}
    (same : message (hex session.bytes) (hex random.val) =
      message (hex other.bytes) (hex another.val)) : session = other ∧ random = another := by
  obtain ⟨sessions, randoms⟩ :=
    @message_inj ⟨session.bytes, session.width⟩ ⟨other.bytes, other.width⟩ random another same
  cases session
  cases other
  cases sessions
  exact ⟨rfl, randoms⟩

theorem token_inj {other : SecretDigest} {random another : ThirtyTwo}
    (same : token mac key session random = token mac key other another) :
    sign mac key session random = sign mac key other another ∧ random = another := by
  have halves := @splitOnce_token mac key session random
  rw [same, splitOnce_token] at halves
  obtain ⟨hashes, randoms⟩ := Prod.mk.inj (Option.some.inj halves)
  exact ⟨hex_inj (String.toList_inj.mp hashes.symm), hex_inj (String.toList_inj.mp randoms.symm)⟩

/-- **A token of one session is accepted for no other.** -/
theorem verify_session (separates : Separates mac key) {other : SecretDigest} {random : ThirtyTwo}
    (accepted : verify mac key other [(token mac key session random).wire] = .ok ()) :
    other = session := by
  obtain ⟨another, same⟩ := verify_ok.mp accepted
  obtain ⟨hashes, rfl⟩ := token_inj (congrArg CsrfToken.mk (List.singleton_inj.mp same))
  exact (message_digest (separates random ⟨session, rfl⟩ ⟨other, rfl⟩ hashes)).1.symm

end Csrf

end Renvor
