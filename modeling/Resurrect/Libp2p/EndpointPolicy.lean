import Resurrect.Core.PeerRecord

/-! # The endpoint policy

Which multiaddresses of a verified record are worth dialing from a context:
`EndpointPolicy::accepts` over the components of an address, and the address
classes of the standard library it relies on.
-/

namespace Resurrect.Libp2p

open Resurrect.Core

instance neZeroSegments : NeZero 8 := ⟨Nat.succ_ne_zero 7⟩

structure Ipv4Addr where
  octets : Vector UInt8 4
  deriving DecidableEq, Repr

structure Ipv6Addr where
  segments : Vector UInt16 8
  deriving DecidableEq, Repr

namespace Ipv4Addr

variable (self : Ipv4Addr)

def isUnspecified : Bool := self.octets == #v[0, 0, 0, 0]

def isLoopback : Bool := self.octets[0] == 127

def isPrivate : Bool :=
  self.octets[0] == 10 ||
  (self.octets[0] == 172 && (16 : UInt8) ≤ self.octets[1] && self.octets[1] ≤ 31) ||
  (self.octets[0] == 192 && self.octets[1] == 168)

def isLinkLocal : Bool := self.octets[0] == 169 && self.octets[1] == 254

def isMulticast : Bool := (224 : UInt8) ≤ self.octets[0] && self.octets[0] ≤ 239

def isBroadcast : Bool := self.octets == #v[255, 255, 255, 255]

def isDocumentation : Bool :=
  (self.octets[0] == 192 && self.octets[1] == 0 && self.octets[2] == 2) ||
  (self.octets[0] == 198 && self.octets[1] == 51 && self.octets[2] == 100) ||
  (self.octets[0] == 203 && self.octets[1] == 0 && self.octets[2] == 113)

end Ipv4Addr

namespace Ipv6Addr

variable (self : Ipv6Addr)

def isUnspecified : Bool := self.segments == #v[0, 0, 0, 0, 0, 0, 0, 0]

def isLoopback : Bool := self.segments == #v[0, 0, 0, 0, 0, 0, 0, 1]

def isMulticast : Bool := (self.segments[0] &&& 0xff00) == 0xff00

/-- The IPv4 address behind `::ffff:0:0/96`. -/
def toIpv4Mapped : Option Ipv4Addr :=
  if self.segments[0] = 0 ∧ self.segments[1] = 0 ∧ self.segments[2] = 0 ∧ self.segments[3] = 0 ∧
      self.segments[4] = 0 ∧ self.segments[5] = 0xffff then
    some ⟨#v[(self.segments[6] >>> 8).toUInt8, self.segments[6].toUInt8,
      (self.segments[7] >>> 8).toUInt8, self.segments[7].toUInt8]⟩
  else none

end Ipv6Addr

inductive IpAddr where
  | v4 (ip : Ipv4Addr)
  | v6 (ip : Ipv6Addr)
  deriving DecidableEq, Repr

def IpAddr.isUnspecified : IpAddr → Bool
  | .v4 ip => ip.isUnspecified
  | .v6 ip => ip.isUnspecified

def IpAddr.isMulticast : IpAddr → Bool
  | .v4 ip => ip.isMulticast
  | .v6 ip => ip.isMulticast

def isGlobalIpv4 (ip : Ipv4Addr) : Bool :=
  !(ip.isUnspecified || ip.isLoopback || ip.isPrivate || ip.isLinkLocal || ip.isMulticast ||
    ip.isBroadcast || ip.isDocumentation || ip.octets[0] == 0 || (240 : UInt8) ≤ ip.octets[0] ||
    (ip.octets[0] == 100 && ((64 : UInt8) ≤ ip.octets[1] && ip.octets[1] ≤ 127)) ||
    (ip.octets[0] == 198 && (ip.octets[1] == 18 || ip.octets[1] == 19)))

def isGlobalIpv6 (ip : Ipv6Addr) : Bool :=
  match ip.toIpv4Mapped with
  | some mapped => isGlobalIpv4 mapped
  | none =>
    !(ip.isUnspecified || ip.isLoopback || ip.isMulticast ||
      (ip.segments[0] &&& 0xfe00) == 0xfc00 || (ip.segments[0] &&& 0xffc0) == 0xfe80 ||
      (ip.segments[0] == 0x2001 && ip.segments[1] == 0x0db8))

/-- A component of a multiaddress; the policy passes over the ones without a name of their own. -/
inductive Protocol (PeerId : Type) where
  | ip4 (ip : Ipv4Addr)
  | ip6 (ip : Ipv6Addr)
  | p2p (peer : PeerId)
  | tcp (port : UInt16)
  | udp (port : UInt16)
  | quicV1
  | webTransport
  | wss (path : String)
  | https
  | tls
  | certhash (multihash : Bytes)
  | other (component : String)
  deriving DecidableEq, Repr

structure EndpointPolicy where
  allowNonGlobal : Bool
  deriving DecidableEq, Repr

namespace EndpointPolicy

def default : EndpointPolicy := ⟨false⟩

def localTesting : EndpointPolicy := ⟨true⟩

variable (self : EndpointPolicy)

def acceptIp (ip : IpAddr) : Bool :=
  if self.allowNonGlobal then !ip.isUnspecified && !ip.isMulticast
  else match ip with
    | .v4 ip => isGlobalIpv4 ip
    | .v6 ip => isGlobalIpv6 ip

section Accepts

variable {PeerId : Type} [DecidableEq PeerId]

/-- The components from one on, with what the earlier ones have shown of the transport. -/
def acceptsFrom (expectedPeer : Option PeerId) (context : DialContext) (hasTransport browserSecure : Bool) :
    List (Protocol PeerId) → Bool
  | [] =>
    match context with
    | .nativeServer | .mobile => hasTransport
    | .browser | .restrictedEgress => hasTransport && browserSecure
  | protocol :: rest =>
    match protocol with
    | .ip4 ip =>
      if !self.acceptIp (.v4 ip) then false
      else acceptsFrom expectedPeer context hasTransport browserSecure rest
    | .ip6 ip =>
      if !self.acceptIp (.v6 ip) then false
      else acceptsFrom expectedPeer context hasTransport browserSecure rest
    | .p2p peer =>
      if expectedPeer.any fun expected => expected ≠ peer then false
      else acceptsFrom expectedPeer context hasTransport browserSecure rest
    | .tcp _ | .udp _ | .quicV1 => acceptsFrom expectedPeer context true browserSecure rest
    | .webTransport | .wss _ | .https => acceptsFrom expectedPeer context true true rest
    | .tls | .certhash _ => acceptsFrom expectedPeer context hasTransport true rest
    | .other _ => acceptsFrom expectedPeer context hasTransport browserSecure rest

def accepts (address : List (Protocol PeerId)) (expectedPeer : Option PeerId) (context : DialContext) : Bool :=
  if address.isEmpty then false else self.acceptsFrom expectedPeer context false false address

variable {self} {wider : EndpointPolicy}

theorem acceptsFrom_mono (hWider : ∀ ip, self.acceptIp ip = true → wider.acceptIp ip = true)
    {expectedPeer : Option PeerId} {context : DialContext} {address : List (Protocol PeerId)}
    {hasTransport browserSecure : Bool}
    (h : self.acceptsFrom expectedPeer context hasTransport browserSecure address = true) :
    wider.acceptsFrom expectedPeer context hasTransport browserSecure address = true := by
  induction address generalizing hasTransport browserSecure with
  | nil => exact h
  | cons protocol rest ih =>
    cases protocol with
    | ip4 ip =>
      rw [acceptsFrom] at h ⊢
      split at h
      · cases h
      · rename_i hIp
        rw [if_neg (by rw [hWider _ (by simpa using hIp)]; decide)]
        exact ih h
    | ip6 ip =>
      rw [acceptsFrom] at h ⊢
      split at h
      · cases h
      · rename_i hIp
        rw [if_neg (by rw [hWider _ (by simpa using hIp)]; decide)]
        exact ih h
    | p2p peer =>
      rw [acceptsFrom] at h ⊢
      split at h
      · cases h
      · rename_i hPeer
        rw [if_neg hPeer]
        exact ih h
    | _ => exact ih h

theorem accepts_mono (hWider : ∀ ip, self.acceptIp ip = true → wider.acceptIp ip = true)
    {address : List (Protocol PeerId)} {expectedPeer : Option PeerId} {context : DialContext}
    (h : self.accepts address expectedPeer context = true) : wider.accepts address expectedPeer context = true := by
  rw [accepts] at h ⊢
  split at h
  · cases h
  · rename_i hSome
    rw [if_neg hSome]
    exact acceptsFrom_mono hWider h

end Accepts

/-- What is dialed over the internet is dialed in a test, too. -/
theorem acceptIp_localTesting {ip : IpAddr} (h : default.acceptIp ip = true) : localTesting.acceptIp ip = true := by
  change (!ip.isUnspecified && !ip.isMulticast) = true
  cases ip with
  | v4 ip =>
    have hGlobal : isGlobalIpv4 ip = true := h
    simp only [isGlobalIpv4, Bool.not_eq_true', Bool.or_eq_false_iff] at hGlobal
    simp only [IpAddr.isUnspecified, IpAddr.isMulticast, hGlobal, Bool.not_false, Bool.and_self]
  | v6 ip =>
    have hGlobal : isGlobalIpv6 ip = true := h
    rw [isGlobalIpv6] at hGlobal
    split at hGlobal
    · -- a mapped address is in `::ffff:0:0/96`, neither all zero nor multicast
      rename_i mapped hMapped
      rw [Ipv6Addr.toIpv4Mapped] at hMapped
      split at hMapped
      · rename_i hSegments
        obtain ⟨hFirst, -, -, -, -, hLast⟩ := hSegments
        have hUnspecified : ip.isUnspecified = false := by
          rw [Ipv6Addr.isUnspecified, beq_eq_false_iff_ne]
          intro hZero
          rw [hZero] at hLast
          exact absurd hLast (by decide)
        have hMulticast : ip.isMulticast = false := by
          rw [Ipv6Addr.isMulticast, hFirst]
          rfl
        simp only [IpAddr.isUnspecified, IpAddr.isMulticast, hUnspecified, hMulticast, Bool.not_false, Bool.and_self]
      · cases hMapped
    · simp only [Bool.not_eq_true', Bool.or_eq_false_iff] at hGlobal
      simp only [IpAddr.isUnspecified, IpAddr.isMulticast, hGlobal, Bool.not_false, Bool.and_self]

end EndpointPolicy

example : isGlobalIpv6 ⟨#v[0, 0, 0, 0, 0, 0xffff, 0x7f00, 1]⟩ = false := by decide

end Resurrect.Libp2p
