import Mathlib.Data.Finset.Insert
import Renvor.Http.Forwarded

/-! # Who is asking

The direct peer is asked about first. Only what a trusted peer says of others is
read: in `Forwarded` where there is one, else in the header of old.
-/

namespace Renvor

theorem IpAddr.toCanonical_idem (address : IpAddr) :
    address.toCanonical.toCanonical = address.toCanonical := by
  cases address with
  | v4 octets => rfl
  | v6 octets =>
      by_cases mapped : octets.toList.take 12 = List.replicate 10 0 ++ [255, 255]
      · simp only [toCanonical, if_pos mapped]
      · simp only [toCanonical, if_neg mapped]

/-- The peers whose forwarding headers are read, each in its canonical form. -/
structure TrustedProxies where
  peers : Finset IpAddr
  canonical : ∀ peer ∈ peers, peer.toCanonical = peer

namespace TrustedProxies

def none : TrustedProxies := ⟨∅, by simp⟩

def trust (trusted : TrustedProxies) (peer : IpAddr) : TrustedProxies where
  peers := insert peer.toCanonical trusted.peers
  canonical := by
    intro other member
    obtain rfl | among := Finset.mem_insert.mp member
    · exact peer.toCanonical_idem
    · exact trusted.canonical other among

def isTrusted (trusted : TrustedProxies) (peer : IpAddr) : Bool :=
  decide (peer.toCanonical ∈ trusted.peers)

end TrustedProxies

/-- What a request carries that bears on identity. -/
structure ForwardingHeaders where
  forwarded : List String
  xForwardedFor : List String

/-- What a request carries that bears on its scheme. -/
structure ProtoHeaders where
  forwarded : List String
  xForwardedProto : List String

def resolve (peer : IpAddr) (trusted : TrustedProxies) (headers : ForwardingHeaders) :
    ClientIdentity :=
  if !trusted.isTrusted peer then .directPeer peer
  else
    let claimed := match singleValue headers.forwarded with
      | some value => fromForwarded value
      -- none, or more than one
      | none => (singleValue headers.xForwardedFor).bind fromXForwardedFor
    match claimed with
    | some client => .viaTrustedProxy client peer
    | none => .directPeer peer

def resolveScheme (client : ClientIdentity) (configured : Scheme) (headers : ProtoHeaders) : Scheme :=
  match client with
  | .directPeer _ => configured
  | .viaTrustedProxy _ _ =>
      let claimed := match singleValue headers.forwarded with
        | some value => protoFromForwarded value
        | none => (singleValue headers.xForwardedProto).bind protoFromXForwardedProto
      claimed.getD configured

/-- A request as it comes from its socket. -/
structure Arrival where
  peer : IpAddr
  forwarded : List String
  xForwardedFor : List String
  xForwardedProto : List String

namespace Arrival

variable (arrival : Arrival) (trusted : TrustedProxies) (configured : Scheme)

def identity : ClientIdentity :=
  resolve arrival.peer trusted ⟨arrival.forwarded, arrival.xForwardedFor⟩

def scheme : Scheme :=
  resolveScheme (arrival.identity trusted) configured ⟨arrival.forwarded, arrival.xForwardedProto⟩

/-- One header that is read alone, or none and one of old that is read. -/
inductive Sole {Read : Type} (forwarded old : List String) (read readOld : String → Option Read)
    (result : Read) : Prop
  | forwarded {value : String} (one : forwarded = [value]) (reads : read value = some result)
  | old {value : String} (absent : forwarded = []) (one : old = [value])
      (reads : readOld value = some result)

/-- A header is there more than once. -/
def Repeats : Prop :=
  1 < arrival.forwarded.length ∨ 1 < arrival.xForwardedFor.length ∨
    1 < arrival.xForwardedProto.length

/-- What headers may do to an identity and a scheme. -/
structure Guarded : Prop where
  unmoved : trusted.isTrusted arrival.peer = false → ∀ other : Arrival, other.peer = arrival.peer →
    ∀ configured, other.identity trusted = arrival.identity trusted ∧
      other.scheme trusted configured = arrival.scheme trusted configured
  identified : ∀ client proxy, arrival.identity trusted = .viaTrustedProxy client proxy →
    Sole arrival.forwarded arrival.xForwardedFor fromForwarded fromXForwardedFor client
  schemed : ∀ configured, arrival.scheme trusted configured ≠ configured →
    Sole arrival.forwarded arrival.xForwardedProto protoFromForwarded protoFromXForwardedProto
      (arrival.scheme trusted configured)
  refused : arrival.Repeats → arrival.identity trusted = .directPeer arrival.peer ∧
    ∀ configured, arrival.scheme trusted configured = configured

/-- A trusted peer repeats a header, and the one that decides is read all the same:
a `Forwarded` that is alone, else a single `X-Forwarded-For`. -/
structure Lapses : Prop where
  trusts : trusted.isTrusted arrival.peer = true
  repeats : arrival.Repeats
  read : (∃ value client, arrival.forwarded = [value] ∧ fromForwarded value = some client) ∨
    arrival.forwarded.length ≠ 1 ∧
      ∃ value client, arrival.xForwardedFor = [value] ∧ fromXForwardedFor value = some client

variable {arrival trusted configured}

theorem singleValue_some {values : List String} {value : String} :
    singleValue values = some value ↔ values = [value] := by
  unfold singleValue
  split
  · simp
  next other => exact ⟨nofun, fun same => (other value same).elim⟩

theorem singleValue_none {values : List String} : singleValue values = none ↔ values.length ≠ 1 := by
  rw [← not_iff_not, not_not, List.length_eq_one_iff, ← ne_eq, Option.ne_none_iff_exists']
  simp only [singleValue_some]

/-- No header of an untrusted peer is read. -/
theorem identity_untrusted (untrusted : trusted.isTrusted arrival.peer = false) :
    arrival.identity trusted = .directPeer arrival.peer := by
  unfold identity resolve
  rw [untrusted]
  rfl

theorem scheme_direct {peer : IpAddr} (direct : arrival.identity trusted = .directPeer peer)
    (configured : Scheme) : arrival.scheme trusted configured = configured := by
  unfold scheme
  rw [direct]
  rfl

/-- An identity is the direct peer, or what the deciding header is read as. -/
theorem identity_cases : arrival.identity trusted = .directPeer arrival.peer ∨
    ∃ client, arrival.identity trusted = .viaTrustedProxy client arrival.peer ∧
      trusted.isTrusted arrival.peer = true ∧
        ((∃ value, arrival.forwarded = [value] ∧ fromForwarded value = some client) ∨
          arrival.forwarded.length ≠ 1 ∧
            ∃ value, arrival.xForwardedFor = [value] ∧ fromXForwardedFor value = some client) := by
  cases trusts : trusted.isTrusted arrival.peer with
  | false => exact .inl (identity_untrusted trusts)
  | true =>
      unfold identity resolve
      rw [trusts]
      cases single : singleValue arrival.forwarded with
      | some value =>
          cases reads : fromForwarded value with
          | none => exact .inl (by simp [reads])
          | some client =>
              refine .inr ⟨client, by simp [reads], rfl, .inl ⟨value, ?_, reads⟩⟩
              exact singleValue_some.mp single
      | none =>
          cases reads : (singleValue arrival.xForwardedFor).bind fromXForwardedFor with
          | none => exact .inl (by simp)
          | some client =>
              obtain ⟨value, one, read⟩ := Option.bind_eq_some_iff.mp reads
              refine .inr ⟨client, by simp, rfl, .inr ⟨?_, value, ?_, read⟩⟩
              · exact singleValue_none.mp single
              · exact singleValue_some.mp one

/-- A trusted peer's deciding header is used where it is read. -/
theorem identity_read (trusts : trusted.isTrusted arrival.peer = true)
    (read : (∃ value client, arrival.forwarded = [value] ∧ fromForwarded value = some client) ∨
      arrival.forwarded.length ≠ 1 ∧
        ∃ value client, arrival.xForwardedFor = [value] ∧ fromXForwardedFor value = some client) :
    ∃ client, arrival.identity trusted = .viaTrustedProxy client arrival.peer := by
  unfold identity resolve
  rw [trusts]
  obtain ⟨value, client, one, reads⟩ | ⟨several, value, client, one, reads⟩ := read
  · exact ⟨client, by simp [singleValue_some.mpr one, reads]⟩
  · exact ⟨client, by simp [singleValue_none.mpr several, singleValue_some.mpr one, reads]⟩

/-- A scheme other than the configured one is what the deciding header is read as. -/
theorem scheme_moved (moved : arrival.scheme trusted configured ≠ configured) :
    (∃ client proxy, arrival.identity trusted = .viaTrustedProxy client proxy) ∧
      ((∃ value, arrival.forwarded = [value] ∧
          protoFromForwarded value = some (arrival.scheme trusted configured)) ∨
        arrival.forwarded.length ≠ 1 ∧ ∃ value, arrival.xForwardedProto = [value] ∧
          protoFromXForwardedProto value = some (arrival.scheme trusted configured)) := by
  cases resolved : arrival.identity trusted with
  | directPeer peer => exact (moved (scheme_direct resolved configured)).elim
  | viaTrustedProxy client proxy =>
      refine ⟨⟨client, proxy, rfl⟩, ?_⟩
      unfold scheme at moved ⊢
      rw [resolved] at moved ⊢
      unfold resolveScheme at moved ⊢
      dsimp only at moved ⊢
      cases single : singleValue arrival.forwarded with
      | some value =>
          rw [single] at moved
          dsimp only at moved ⊢
          cases reads : protoFromForwarded value with
          | none => simp [reads] at moved
          | some scheme => exact .inl ⟨value, singleValue_some.mp single, by simp [reads]⟩
      | none =>
          rw [single] at moved
          dsimp only at moved ⊢
          cases reads : (singleValue arrival.xForwardedProto).bind protoFromXForwardedProto with
          | none => simp [reads] at moved
          | some scheme =>
              obtain ⟨value, one, read⟩ := Option.bind_eq_some_iff.mp reads
              exact .inr ⟨singleValue_none.mp single, value, singleValue_some.mp one, by simp [read]⟩

/-- Without a repeated header the deciding one is alone. -/
theorem sole_of_single {Read : Type} {old : List String} {read readOld : String → Option Read}
    {result : Read} (unrepeated : ¬ 1 < arrival.forwarded.length)
    (decided : (∃ value, arrival.forwarded = [value] ∧ read value = some result) ∨
      arrival.forwarded.length ≠ 1 ∧ ∃ value, old = [value] ∧ readOld value = some result) :
    Sole arrival.forwarded old read readOld result := by
  obtain ⟨value, one, reads⟩ | ⟨several, value, one, reads⟩ := decided
  · exact .forwarded one reads
  · exact .old (List.length_eq_zero_iff.mp (by omega)) one reads

/-- A forwarded identity makes a repeated header a lapse. -/
theorem Lapses.of_forwarded {client proxy : IpAddr} (repeats : arrival.Repeats)
    (resolved : arrival.identity trusted = .viaTrustedProxy client proxy) :
    arrival.Lapses trusted := by
  obtain direct | ⟨other, _, trusts, read⟩ := @identity_cases arrival trusted
  · cases direct.symm.trans resolved
  · refine ⟨trusts, repeats, ?_⟩
    obtain ⟨value, one, reads⟩ | ⟨several, value, one, reads⟩ := read
    · exact .inl ⟨value, other, one, reads⟩
    · exact .inr ⟨several, value, other, one, reads⟩

end Arrival

end Renvor
