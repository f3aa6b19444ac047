import Renvor.Kernel.Address
import Renvor.Auth.Admission
import Renvor.Auth.Audit
import Renvor.Auth.Lifetime
import Renvor.Foundation.Interleaving
import Renvor.Foundation.Windows

/-! # Abuse controls

Every guarded attempt is counted on each dimension of its flow before anything
is decided. A dimension's identifiers are mapped into a fixed number of buckets,
and a bucket is counted in windows anchored at the epoch. The keyed hash and the
normalisation of text are parameters.
-/

namespace Renvor

open Foundation
open Foundation.Interleaving (Script)

/-- Which of the three axes a dimension counts. -/
inductive AttemptAxis
  | account | client | network
  deriving DecidableEq

/-- A counted dimension: a flow and an axis. -/
inductive AttemptDimension
  | registerAccount | registerNetwork | logInAccount | logInNetwork
  | verificationResendAccount | verificationResendNetwork | verificationCompleteNetwork
  | forgotPasswordAccount | forgotPasswordNetwork | resetPasswordNetwork
  | tokenRefreshClient | tokenRefreshNetwork
  deriving DecidableEq

namespace AttemptDimension

def all : List AttemptDimension :=
  [registerAccount, registerNetwork, logInAccount, logInNetwork, verificationResendAccount,
    verificationResendNetwork, verificationCompleteNetwork, forgotPasswordAccount,
    forgotPasswordNetwork, resetPasswordNetwork, tokenRefreshClient, tokenRefreshNetwork]

/-- The value of the `dimension` column. -/
def code : AttemptDimension → Int
  | registerAccount => 11
  | registerNetwork => 12
  | logInAccount => 1
  | logInNetwork => 2
  | verificationResendAccount => 3
  | verificationResendNetwork => 4
  | verificationCompleteNetwork => 5
  | forgotPasswordAccount => 6
  | forgotPasswordNetwork => 7
  | resetPasswordNetwork => 8
  | tokenRefreshClient => 9
  | tokenRefreshNetwork => 10

def axis : AttemptDimension → AttemptAxis
  | registerAccount | logInAccount | verificationResendAccount | forgotPasswordAccount => .account
  | tokenRefreshClient => .client
  | registerNetwork | logInNetwork | verificationResendNetwork | verificationCompleteNetwork
  | forgotPasswordNetwork | resetPasswordNetwork | tokenRefreshNetwork => .network

/-- The tag that separates the dimensions' hashes. -/
def tag : AttemptDimension → String
  | registerAccount => "register/account"
  | registerNetwork => "register/network"
  | logInAccount => "login/account"
  | logInNetwork => "login/network"
  | verificationResendAccount => "verification-resend/account"
  | verificationResendNetwork => "verification-resend/network"
  | verificationCompleteNetwork => "verification-complete/network"
  | forgotPasswordAccount => "forgot-password/account"
  | forgotPasswordNetwork => "forgot-password/network"
  | resetPasswordNetwork => "reset-password/network"
  | tokenRefreshClient => "token-refresh/client"
  | tokenRefreshNetwork => "token-refresh/network"

theorem mem_all (dimension : AttemptDimension) : dimension ∈ all := by
  cases dimension <;> decide

theorem code_inj {first second : AttemptDimension} (same : first.code = second.code) :
    first = second := by
  revert first second
  have each : ∀ first ∈ all, ∀ second ∈ all, first.code = second.code → first = second := by
    decide
  intro first second
  exact each first first.mem_all second second.mem_all

theorem code_within (dimension : AttemptDimension) :
    1 ≤ dimension.code ∧ dimension.code ≤ 12 := by
  cases dimension <;> decide

end AttemptDimension

/-- The dimensions a flow counts. -/
def AttemptFlow.dimensions : AttemptFlow → List AttemptDimension
  | register => [.registerAccount, .registerNetwork]
  | logIn => [.logInAccount, .logInNetwork]
  | verificationResend => [.verificationResendAccount, .verificationResendNetwork]
  | verificationComplete => [.verificationCompleteNetwork]
  | forgotPassword => [.forgotPasswordAccount, .forgotPasswordNetwork]
  | resetPassword => [.resetPasswordNetwork]
  | tokenRefresh => [.tokenRefreshClient, .tokenRefreshNetwork]

def AttemptFlow.auditAction : AttemptFlow → AuditAction
  | register => .register
  | logIn => .logIn
  | verificationResend => .verificationResend
  | verificationComplete => .verificationComplete
  | forgotPassword => .passwordForgot
  | resetPassword => .passwordReset
  | tokenRefresh => .tokenRefresh

def AttemptBuckets.min : Nat := 256

def AttemptBuckets.max : Nat := 1048576

/-- How many buckets a dimension is divided into: a power of two within bounds. -/
structure AttemptBuckets where
  count : Nat
  power : ∃ exponent, count = 2 ^ exponent
  bounded : AttemptBuckets.min ≤ count ∧ count ≤ AttemptBuckets.max

/-- A bucket's index. -/
structure AttemptBucket where
  index : Nat
  below : index < AttemptBuckets.max
  deriving DecidableEq

/-- What is being counted. -/
inductive AttemptKey
  | account (identifier : String)
  | client (family : Sixteen)
  | network (identity : ClientIdentity)

def AttemptKey.axis : AttemptKey → AttemptAxis
  | account _ => .account
  | client _ => .client
  | network _ => .network

/-- How texts are normalised: white space trimmed and letters put in lower case. -/
structure TextRules where
  trim : String → String
  toLowercase : String → String

/-- A text's bytes. -/
def textBytes (text : String) : List Byte :=
  text.toUTF8.toList.map fun byte => byte.toBitVec.toFin

namespace AttemptKey

/-- The address as it is counted: an IPv4 address, or the prefix of an IPv6 one. -/
def networkBytes : IpAddr → List Byte
  | .v4 octets => 4 :: octets.toList
  | .v6 octets => match toIpv4Mapped octets with
      | some octets => 4 :: octets
      | none => 6 :: octets.toList.take 8

/-- The bytes a key is counted by. -/
def bytes (rules : TextRules) : AttemptKey → List Byte
  | account identifier => textBytes (rules.toLowercase (rules.trim identifier))
  | client family => family.bytes
  | network identity => networkBytes identity.address

end AttemptKey

/-- The server secret that assigns buckets, the keyed hash, and how texts are
normalised. -/
structure AttemptKeyring where
  key : List.Vector Byte 32
  buckets : AttemptBuckets
  hmac : List Byte → List Byte → List.Vector Byte 32
  rules : TextRules

namespace AttemptKeyring

/-- The bytes fed to the keyed hash: the dimension's tag, a separator that is in
no tag, and the key. -/
def message (keyring : AttemptKeyring) (dimension : AttemptDimension) (key : AttemptKey) :
    List Byte :=
  textBytes dimension.tag ++ 0x1F :: key.bytes keyring.rules

/-- A big-endian number. -/
def fromBeBytes (bytes : List Byte) : Nat :=
  bytes.foldl (fun number byte => number * 256 + byte.val) 0

/-- The masked head of the hash. -/
def masked (keyring : AttemptKeyring) (digest : List.Vector Byte 32) : AttemptBucket where
  index := fromBeBytes (digest.toList.take 4) &&& (keyring.buckets.count - 1)
  below := by
    have bounded := keyring.buckets.bounded
    have le : fromBeBytes (digest.toList.take 4) &&& (keyring.buckets.count - 1) ≤
        keyring.buckets.count - 1 := Nat.and_le_right
    have least : 0 < AttemptBuckets.min := by decide
    omega

/-- Maps a key into a dimension's buckets. -/
def bucket (keyring : AttemptKeyring) (dimension : AttemptDimension) (key : AttemptKey) :
    Except AuthError AttemptBucket :=
  if dimension.axis ≠ key.axis then .error .policyMisconfigured
  else .ok (keyring.masked (keyring.hmac keyring.key.toList (keyring.message dimension key)))

end AttemptKeyring

/-- The limit and window of a dimension. -/
structure AttemptLimit where
  limit : Nat
  windowSeconds : Int
  positive : 0 < limit
  bounded : 1 ≤ windowSeconds ∧ windowSeconds ≤ 86400

/-- A row's counters after an observation. -/
structure AttemptState where
  current : Nat
  previous : Nat
  windowStart : Instant

/-- The largest count a `BIGINT` column holds. -/
def AttemptState.ceiling : Nat := 9223372036854775807

/-- One increment request. -/
structure AttemptObservation where
  dimension : AttemptDimension
  bucket : AttemptBucket
  windowStart : Instant
  previousWindowStart : Instant
  expiresAt : Instant

inductive AttemptOutcome
  | counted (state : AttemptState)
  | clockRegressed

namespace AttemptLimit

def new (limit : Nat) (window : Duration) : Except AuthError AttemptLimit :=
  let seconds := window.numSeconds
  if accepted : 0 < limit ∧ window = .seconds seconds ∧ 1 ≤ seconds ∧ seconds ≤ 86400 then
    .ok ⟨limit, seconds, accepted.1, accepted.2.2⟩
  else .error .policyMisconfigured

def window (limit : AttemptLimit) : Duration := .seconds limit.windowSeconds

/-- The start of the window that contains an instant, counted from the epoch. -/
def windowStart (limit : AttemptLimit) (now : Instant) : Instant :=
  Duration.seconds (now.timestamp / limit.windowSeconds * limit.windowSeconds)

/-- The weighted estimate: the current count and the tail of the previous one. -/
def exceededBy (limit : AttemptLimit) (state : AttemptState) (now : Instant) : Bool :=
  let window := (max limit.windowSeconds 1).toNat
  let elapsed := (min (max (Duration.numSeconds (now - state.windowStart)) 0)
    limit.windowSeconds).toNat
  let remaining := window - elapsed
  let weighted := state.previous * remaining / window
  decide (weighted + state.current > limit.limit)

/-- What is asked of the store for one attempt. -/
def observation (limit : AttemptLimit) (dimension : AttemptDimension) (bucket : AttemptBucket)
    (now : Instant) : AttemptObservation :=
  let windowStart := limit.windowStart now
  { dimension
    bucket
    windowStart
    previousWindowStart := windowStart - limit.window
    expiresAt := windowStart + limit.window + limit.window }

theorem window_pos (limit : AttemptLimit) : 0 < limit.window := by
  have least := limit.bounded.1
  have positive : (0 : Int) < limit.windowSeconds * 1000000 := by omega
  exact positive

/-- The window's start, counted in microseconds. -/
theorem windowStart_eq (limit : AttemptLimit) (now : Instant) :
    limit.windowStart now = Windows.start limit.window now := by
  unfold windowStart window Duration.seconds Instant.timestamp Windows.start
  have whole : now / (limit.windowSeconds * 1000000) = now / 1000000 / limit.windowSeconds := by
    rw [Int.mul_comm, Int.ediv_ediv_of_nonneg (by decide)]
  rw [whole, Int.mul_assoc]

end AttemptLimit

/-- A limit for every dimension. -/
structure AbuseContract where
  limits : AttemptDimension → AttemptLimit

def AbuseContract.get (contract : AbuseContract) (dimension : AttemptDimension) : AttemptLimit :=
  contract.limits dimension

/-- The keys a flow's dimensions are counted on. -/
structure FlowKeys where
  account : Option String
  client : Option Sixteen
  network : ClientIdentity

/-- What the guard asks of its store and its audit sink. -/
inductive GuardCall
  | observe (observation : AttemptObservation)
  | record (event : AuditEvent)

/-- The store's answer, and whether the sink took the event. -/
abbrev GuardCall.Reply : GuardCall → Type
  | observe _ => Except DatabaseErrorKind AttemptOutcome
  | record _ => Bool

structure AbuseGuard where
  keyring : AttemptKeyring
  contract : AbuseContract

namespace AbuseGuard

abbrev Guarding := Script GuardCall GuardCall.Reply ServiceError

abbrev observe (observation : AttemptObservation) :
    Guarding (Except DatabaseErrorKind AttemptOutcome) :=
  Script.ask (GuardCall.observe observation)

abbrev record (event : AuditEvent) : Guarding Bool := Script.ask (GuardCall.record event)

/-- The key an axis is counted on. -/
def keyFor (keys : FlowKeys) : AttemptAxis → Except ServiceError AttemptKey
  | .account => match keys.account with
      | some identifier => .ok (.account identifier)
      | none => .error (.refused .policyMisconfigured)
  | .client => match keys.client with
      | some family => .ok (.client family)
      | none => .error (.refused .policyMisconfigured)
  | .network => .ok (.network keys.network)

/-- Whether an outcome puts the caller over the limit. -/
def refuses (limit : AttemptLimit) (now : Instant) : AttemptOutcome → Bool
  | .counted state => limit.exceededBy state now
  | .clockRegressed => true

/-- Counts one attempt on each dimension, and never stops at a refusal. -/
def count (guard : AbuseGuard) (keys : FlowKeys) (now : Instant) :
    List AttemptDimension → Bool → Guarding Bool
  | [], refused => return refused
  | dimension :: rest, refused => do
      let key ← Script.ofExcept (keyFor keys dimension.axis)
      let bucket ← Script.ofExcept
        ((guard.keyring.bucket dimension key).mapError ServiceError.refused)
      let limit := guard.contract.get dimension
      match ← observe (limit.observation dimension bucket now) with
      | .error kind => Script.fail (.storage kind)
      | .ok outcome => guard.count keys now rest (refused || refuses limit now outcome)

/-- The event of an attempt, the same on both paths. -/
def event (flow : AttemptFlow) (refused : Bool) (correlation : CorrelationId) (now : Instant) :
    AuditEvent where
  action := flow.auditAction
  outcome := if refused then .refused else .permitted
  actor := .anonymous
  subject := .unspecified
  correlation
  «at» := now

/-- Counts one attempt on every dimension of the flow, records it, then decides. -/
def admitAttempt (guard : AbuseGuard) (flow : AttemptFlow) (keys : FlowKeys)
    (correlation : CorrelationId) (now : Instant) : Guarding Admitted := do
  let refused ← guard.count keys now flow.dimensions false
  let taken ← record (event flow refused correlation now)
  if !taken then Script.fail (.refused .tooManyAttempts)
  else if refused then Script.fail (.refused .tooManyAttempts)
  else return ⟨flow⟩

end AbuseGuard

end Renvor
