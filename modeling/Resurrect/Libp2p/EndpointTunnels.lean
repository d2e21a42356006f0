import Resurrect.Libp2p.EndpointPolicy

/-! # Tunnels past the endpoint policy

What `EndpointPolicy::accepts` asks of the components of an address, and the IPv4
addresses that IPv6 literals carry. Of the four ways to embed one, the policy looks
through the mapped form alone.
-/

namespace Resurrect.Libp2p

open Resurrect.Core

section Accepted

variable {PeerId : Type}

namespace Protocol

def isTransport : Protocol PeerId → Bool
  | .tcp _ | .udp _ | .quicV1 | .webTransport | .wss _ | .https => true
  | _ => false

def isBrowserSecure : Protocol PeerId → Bool
  | .webTransport | .wss _ | .https | .tls | .certhash _ => true
  | _ => false

end Protocol

def needsSecure : DialContext → Bool
  | .nativeServer | .mobile => false
  | .browser | .restrictedEgress => true

/-- A component that no address may have, whatever its other components. -/
def Forbidden (policy : EndpointPolicy) (expectedPeer : Option PeerId) : Protocol PeerId → Prop
  | .ip4 ip => policy.acceptIp (.v4 ip) = false
  | .ip6 ip => policy.acceptIp (.v6 ip) = false
  | .p2p peer => ∃ expected ∈ expectedPeer, expected ≠ peer
  | _ => False

structure Accepted (policy : EndpointPolicy) (address : List (Protocol PeerId)) (expectedPeer : Option PeerId)
    (context : DialContext) : Prop where
  allowed : ∀ protocol ∈ address, ¬ Forbidden policy expectedPeer protocol
  transport : ∃ protocol ∈ address, protocol.isTransport
  secure : needsSecure context → ∃ protocol ∈ address, protocol.isBrowserSecure

variable [DecidableEq PeerId] {policy : EndpointPolicy} {expectedPeer : Option PeerId} {context : DialContext}

theorem acceptsFrom_cons (protocol : Protocol PeerId) (rest : List (Protocol PeerId)) (hasTransport browserSecure : Bool) :
    policy.acceptsFrom expectedPeer context hasTransport browserSecure (protocol :: rest) = true ↔
      ¬ Forbidden policy expectedPeer protocol ∧
        policy.acceptsFrom expectedPeer context (hasTransport || protocol.isTransport)
          (browserSecure || protocol.isBrowserSecure) rest = true := by
  cases protocol with
  | ip4 ip => cases h : policy.acceptIp (.v4 ip) <;> simp [EndpointPolicy.acceptsFrom, Forbidden, h,
      Protocol.isTransport, Protocol.isBrowserSecure]
  | ip6 ip => cases h : policy.acceptIp (.v6 ip) <;> simp [EndpointPolicy.acceptsFrom, Forbidden, h,
      Protocol.isTransport, Protocol.isBrowserSecure]
  | p2p peer => cases expectedPeer <;>
      simp [EndpointPolicy.acceptsFrom, Forbidden, Protocol.isTransport, Protocol.isBrowserSecure]
  | _ => simp [EndpointPolicy.acceptsFrom, Forbidden, Protocol.isTransport, Protocol.isBrowserSecure]

theorem acceptsFrom_iff (address : List (Protocol PeerId)) (hasTransport browserSecure : Bool) :
    policy.acceptsFrom expectedPeer context hasTransport browserSecure address = true ↔
      (∀ protocol ∈ address, ¬ Forbidden policy expectedPeer protocol) ∧
      (hasTransport = true ∨ ∃ protocol ∈ address, protocol.isTransport) ∧
      (needsSecure context → browserSecure = true ∨ ∃ protocol ∈ address, protocol.isBrowserSecure) := by
  induction address generalizing hasTransport browserSecure with
  | nil => cases context <;> simp [EndpointPolicy.acceptsFrom, needsSecure]
  | cons protocol rest ih =>
    rw [acceptsFrom_cons, ih]
    simp only [List.mem_cons, forall_eq_or_imp, exists_eq_or_imp, Bool.or_eq_true, or_assoc, and_assoc]

theorem accepts_iff (address : List (Protocol PeerId)) :
    policy.accepts address expectedPeer context = true ↔ Accepted policy address expectedPeer context := by
  rw [EndpointPolicy.accepts]
  split
  · rename_i hEmpty
    rw [List.isEmpty_iff] at hEmpty
    subst hEmpty
    refine ⟨by rintro ⟨⟩, fun h => ?_⟩
    obtain ⟨protocol, hMem, -⟩ := h.transport
    cases hMem
  · rw [acceptsFrom_iff]
    simp only [Bool.false_eq_true, false_or]
    exact ⟨fun h => ⟨h.1, h.2.1, h.2.2⟩, fun h => ⟨h.allowed, h.transport, h.secure⟩⟩

inductive Refused (address : List (Protocol PeerId)) (expectedPeer : Option PeerId) (context : DialContext) : Prop
  | ip4 {ip : Ipv4Addr} (hMem : .ip4 ip ∈ address) (hSpecial : isGlobalIpv4 ip = false)
  | ip6 {ip : Ipv6Addr} (hMem : .ip6 ip ∈ address) (hSpecial : isGlobalIpv6 ip = false)
  | peer {peer expected : PeerId} (hMem : .p2p peer ∈ address) (hExpected : expected ∈ expectedPeer)
      (hOther : expected ≠ peer)
  | transport (hNone : ∀ protocol ∈ address, protocol.isTransport = false)
  | insecure (hNeeds : needsSecure context = true) (hNone : ∀ protocol ∈ address, protocol.isBrowserSecure = false)

omit [DecidableEq PeerId] in
theorem refused_iff (address : List (Protocol PeerId)) :
    Refused address expectedPeer context ↔ ¬ Accepted .default address expectedPeer context := by
  constructor
  · intro hRefused hAccepted
    cases hRefused with
    | ip4 hMem hSpecial => exact hAccepted.allowed _ hMem hSpecial
    | ip6 hMem hSpecial => exact hAccepted.allowed _ hMem hSpecial
    | peer hMem hExpected hOther => exact hAccepted.allowed _ hMem ⟨_, hExpected, hOther⟩
    | transport hNone =>
      obtain ⟨protocol, hMem, hTransport⟩ := hAccepted.transport
      rw [hNone protocol hMem] at hTransport
      cases hTransport
    | insecure hNeeds hNone =>
      obtain ⟨protocol, hMem, hSecure⟩ := hAccepted.secure hNeeds
      rw [hNone protocol hMem] at hSecure
      cases hSecure
  · intro hNot
    by_contra hRefused
    refine hNot ⟨fun protocol hMem hForbidden => hRefused ?_, ?_, fun hNeeds => ?_⟩
    · cases protocol with
      | ip4 ip => exact .ip4 hMem hForbidden
      | ip6 ip => exact .ip6 hMem hForbidden
      | p2p peer =>
        obtain ⟨expected, hExpected, hOther⟩ := hForbidden
        exact .peer hMem hExpected hOther
      | _ => exact hForbidden.elim
    · by_contra hNone
      exact hRefused (.transport fun protocol hMem => Bool.eq_false_iff.mpr fun h => hNone ⟨protocol, hMem, h⟩)
    · by_contra hNone
      exact hRefused (.insecure hNeeds fun protocol hMem => Bool.eq_false_iff.mpr fun h => hNone ⟨protocol, hMem, h⟩)

end Accepted

namespace Ipv6Addr

variable (self : Ipv6Addr)

def inner (high low : UInt16) : Ipv4Addr :=
  ⟨#v[(high >>> 8).toUInt8, high.toUInt8, (low >>> 8).toUInt8, low.toUInt8]⟩

def toIpv4Compatible : Option Ipv4Addr :=
  if self.segments.get 0 = 0 ∧ self.segments.get 1 = 0 ∧ self.segments.get 2 = 0 ∧ self.segments.get 3 = 0 ∧
      self.segments.get 4 = 0 ∧ self.segments.get 5 = 0 then
    some (inner (self.segments.get 6) (self.segments.get 7))
  else none

def toIpv4Nat64 : Option Ipv4Addr :=
  if self.segments.get 0 = 0x64 ∧ self.segments.get 1 = 0xff9b ∧ self.segments.get 2 = 0 ∧ self.segments.get 3 = 0 ∧
      self.segments.get 4 = 0 ∧ self.segments.get 5 = 0 then
    some (inner (self.segments.get 6) (self.segments.get 7))
  else none

def toIpv4SixToFour : Option Ipv4Addr :=
  if self.segments.get 0 = 0x2002 then some (inner (self.segments.get 1) (self.segments.get 2)) else none

/-- The IPv4 addresses in the forms `::/96`, `64:ff9b::/96` and `2002::/16`, through which the policy does not look. -/
def tunnels : List Ipv4Addr :=
  self.toIpv4Compatible.toList ++ self.toIpv4Nat64.toList ++ self.toIpv4SixToFour.toList

def embedded : List Ipv4Addr := self.toIpv4Mapped.toList ++ self.tunnels

end Ipv6Addr

theorem isGlobalIpv4_mapped {ip : Ipv6Addr} (h : isGlobalIpv6 ip = true) {inner : Ipv4Addr}
    (hMapped : inner ∈ ip.toIpv4Mapped) : isGlobalIpv4 inner = true := by
  rw [isGlobalIpv6, hMapped] at h
  exact h

section Tunnels

variable {PeerId : Type} [DecidableEq PeerId]

/-- An accepted address has no special-use IPv4 address, be it a literal or inside an IPv6 literal. -/
def TunnelFree (address : List (Protocol PeerId)) (expectedPeer : Option PeerId) (context : DialContext) : Prop :=
  EndpointPolicy.default.accepts address expectedPeer context = true →
    (∀ ip, .ip4 ip ∈ address → isGlobalIpv4 ip = true) ∧
      ∀ ip, .ip6 ip ∈ address → ∀ inner ∈ ip.embedded, isGlobalIpv4 inner = true

/-- The policy closes the mapped form; the other three are open unless it refuses the address anyway. -/
theorem tunnelFree_iff (address : List (Protocol PeerId)) (expectedPeer : Option PeerId) (context : DialContext) :
    TunnelFree address expectedPeer context ↔
      (∀ ip, .ip6 ip ∈ address → ∀ inner ∈ ip.tunnels, isGlobalIpv4 inner = true) ∨
        Refused address expectedPeer context := by
  rw [TunnelFree, accepts_iff, refused_iff]
  constructor
  · intro h
    by_cases hAccepted : Accepted .default address expectedPeer context
    · refine .inl fun ip hMem inner hInner => ?_
      exact (h hAccepted).2 ip hMem inner (List.mem_append_right _ hInner)
    · exact .inr hAccepted
  · rintro (hTunnels | hNot) hAccepted
    · refine ⟨fun ip hMem => ?_, fun ip hMem inner hInner => ?_⟩
      · exact Bool.not_eq_false _ ▸ hAccepted.allowed _ hMem
      · obtain hMapped | hTunnel := List.mem_append.mp hInner
        · have hGlobal : isGlobalIpv6 ip = true := Bool.not_eq_false _ ▸ hAccepted.allowed _ hMem
          exact isGlobalIpv4_mapped hGlobal (Option.mem_toList.mp hMapped)
        · exact hTunnels ip hMem inner hTunnel
    · exact absurd hAccepted hNot

theorem tunnelFree_loopback : ¬ TunnelFree [.ip6 ⟨#v[0x2002, 0x7f00, 1, 0, 0, 0, 0, 0]⟩, .tcp 4001] (none : Option UInt8)
    .nativeServer := by
  intro h
  have hLoopback := (h (by decide)).2 _ List.mem_cons_self ⟨#v[127, 0, 0, 1]⟩ (by decide)
  exact absurd hLoopback (by decide)

end Tunnels

end Resurrect.Libp2p
