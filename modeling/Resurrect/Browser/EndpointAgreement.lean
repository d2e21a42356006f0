import Resurrect.Browser.PeerRecord
import Resurrect.Libp2p.AddressText
import Resurrect.Libp2p.EndpointTunnels

/-! # The endpoint policy and its browser counterpart

The browser client reads an address as named components with texts, the policy as
typed ones. Each of the two refuses addresses that the other one passes, and an
address is decided alike exactly where both have a reason or neither has.
-/

namespace Resurrect.Browser

open Hex Numeral
open Libp2p (Protocol EndpointPolicy Ipv4Addr Ipv6Addr)

section Ipv4

theorem number_repr (n : Nat) : number n.repr.toList = some n := by
  have hDigits : n.repr.toList.all Char.isDigit := by
    rw [Nat.toList_repr, List.all_eq_true]
    exact fun c hMem => Nat.isDigit_of_mem_toDigits (by decide) (by decide) hMem
  have hSome : n.repr.toList ≠ [] := by
    rw [Nat.toList_repr]
    exact Nat.toDigits_ne_nil
  rw [number, if_neg hSome, if_pos hDigits, value_repr]

/-- The blocks around the documentation networks, which the client refuses as a whole. -/
def isAroundDocumentation (ip : Ipv4Addr) : Bool :=
  (ip.octets.get 0 == 192 && ip.octets.get 1 == 0 && ip.octets.get 2 != 2) ||
  (ip.octets.get 0 == 198 && ip.octets.get 1 == 51 && ip.octets.get 2 != 100) ||
  (ip.octets.get 0 == 203 && ip.octets.get 1 == 0 && ip.octets.get 2 != 113)

def IsSpecial (first second : Nat) : Prop :=
  first = 0 ∨ first = 10 ∨ first = 127 ∨ 224 ≤ first ∨ (first = 100 ∧ 64 ≤ second ∧ second ≤ 127) ∨
  (first = 169 ∧ second = 254) ∨ (first = 172 ∧ 16 ≤ second ∧ second ≤ 31) ∨ (first = 192 ∧ second = 168) ∨
  (first = 192 ∧ second = 0) ∨ (first = 198 ∧ (second = 18 ∨ second = 19)) ∨ (first = 198 ∧ second = 51) ∨
  (first = 203 ∧ second = 0)

theorem isSpecial_iff (ip : Ipv4Addr) : IsSpecial (ip.octets.get 0).toNat (ip.octets.get 1).toNat ↔
    Libp2p.isGlobalIpv4 ip = false ∨ isAroundDocumentation ip = true := by
  obtain ⟨⟨⟨octets⟩, hLength⟩⟩ := ip
  match octets, hLength with
  | [a, b, c, d], _ =>
    simp [IsSpecial, Libp2p.isGlobalIpv4, isAroundDocumentation, Ipv4Addr.isUnspecified, Ipv4Addr.isLoopback,
      Ipv4Addr.isPrivate, Ipv4Addr.isLinkLocal, Ipv4Addr.isMulticast, Ipv4Addr.isBroadcast, Ipv4Addr.isDocumentation,
      ← UInt8.toNat_inj, UInt8.le_iff_toNat_le, Vector.get]
    have hFirst := a.toNat_lt
    constructor
    · rintro (h | h | h | h | h | h | h | h | h | h | h | h) <;> grind
    · grind

/-- Of the addresses that the policy takes for global, the client refuses those around the documentation networks. -/
theorem isGlobalIpv4_text (ip : Ipv4Addr) : isGlobalIpv4 (String.ofList ip.text) = false ↔
    Libp2p.isGlobalIpv4 ip = false ∨ isAroundDocumentation ip = true := by
  have hOctet : ∀ octet : UInt8, ¬ 255 < octet.toNat := fun octet => not_lt.mpr (Nat.le_of_lt_succ octet.toNat_lt)
  rw [isGlobalIpv4, String.toList_ofList, Ipv4Addr.splitOn_text, Ipv4Addr.parts_eq, ← isSpecial_iff]
  simp only [List.map_cons, List.map_nil, number_repr, hOctet, or_false, if_false, IsSpecial, Bool.not_eq_false',
    Bool.or_eq_true, Bool.and_eq_true, beq_iff_eq, decide_eq_true_eq, or_assoc, and_assoc]

end Ipv4

section Ipv6

theorem startsWith_iff {value : String} {start : List Char} : startsWith value start = true ↔ start <+: value.toList :=
  List.isPrefixOf_iff_prefix

def isRefusedText (ip : Ipv6Addr) : Bool :=
  ip.isLeading ||
    [0xfc, 0xfd, 0xfe8, 0xfe9, 0xfea, 0xfeb, 0xff].any (Ipv6Addr.beginsWith · (ip.segments.get 0).toNat) ||
    ((ip.segments.get 0).toNat == 0x2001 && Ipv6Addr.beginsWith 0xdb8 (ip.segments.get 1).toNat)

theorem isGlobalIpv6_text (ip : Ipv6Addr) : isGlobalIpv6 (String.ofList ip.text) = !isRefusedText ip := by
  have hLower : toLowerCase (String.ofList ip.text) = String.ofList ip.text := by
    rw [toLowerCase, String.toList_ofList, List.map_congr_left ip.toLower_text, List.map_id']
  rw [isGlobalIpv6, hLower, Bool.not_inj_iff, Bool.eq_iff_iff]
  simp only [Bool.or_eq_true, startsWith_iff, String.toList_ofList]
  cases hLeading : ip.isLeading with
  | true =>
    have hColons := ip.prefix_text hLeading
    simp [isRefusedText, hLeading, hColons]
  | false =>
    have hColons := Ipv6Addr.not_prefix_text hLeading
    have hFirst := fun {digits : Nat} => @Ipv6Addr.prefix_text_iff ip hLeading digits
    rw [show ['f', 'c'] = Nat.toDigits 16 0xfc from rfl, show ['f', 'd'] = Nat.toDigits 16 0xfd from rfl,
      show ['f', 'e', '8'] = Nat.toDigits 16 0xfe8 from rfl, show ['f', 'e', '9'] = Nat.toDigits 16 0xfe9 from rfl,
      show ['f', 'e', 'a'] = Nat.toDigits 16 0xfea from rfl, show ['f', 'e', 'b'] = Nat.toDigits 16 0xfeb from rfl,
      show ['f', 'f'] = Nat.toDigits 16 0xff from rfl,
      show ['2', '0', '0', '1', ':', 'd', 'b', '8'] = Nat.toDigits 16 0x2001 ++ ':' :: Nat.toDigits 16 0xdb8 from rfl,
      Ipv6Addr.prefix_text_two_iff hLeading 0x2001 (by decide), hFirst (by decide), hFirst (by decide),
      hFirst (by decide), hFirst (by decide), hFirst (by decide), hFirst (by decide), hFirst (by decide)]
    simp [isRefusedText, hLeading, hColons, or_assoc]

theorem div_of_and {value mask target shift width : Nat} (h : value &&& mask = target)
    (hMask : mask >>> shift = 2 ^ width - 1) (hValue : value < 2 ^ shift * 2 ^ width) :
    value / 2 ^ shift = target >>> shift := by
  have hShift : (value &&& mask) >>> shift = target >>> shift := congrArg (· >>> shift) h
  rw [Nat.shiftRight_and_distrib, hMask, Nat.and_two_pow_sub_one_eq_mod, Nat.shiftRight_eq_div_pow,
    Nat.mod_eq_of_lt (Nat.div_lt_of_lt_mul hValue)] at hShift
  exact hShift

theorem isRefusedText_of_segment {ip : Ipv6Addr} {digits : Nat}
    (hMem : digits ∈ [0xfc, 0xfd, 0xfe8, 0xfe9, 0xfea, 0xfeb, 0xff])
    (hBegins : Ipv6Addr.beginsWith digits (ip.segments.get 0).toNat = true) : isRefusedText ip = true := by
  have hAny := @List.any_eq_true _ (Ipv6Addr.beginsWith · (ip.segments.get 0).toNat) _ |>.mpr ⟨digits, hMem, hBegins⟩
  rw [isRefusedText, hAny, Bool.or_true, Bool.true_or]

theorem isRefusedText_of_special {ip : Ipv6Addr} (h : Libp2p.isGlobalIpv6 ip = false) : isRefusedText ip = true := by
  have hBound := (ip.segments.get 0).toNat_lt
  rw [Libp2p.isGlobalIpv6] at h
  split at h
  · rename_i mapped hMapped
    rw [isRefusedText, Ipv6Addr.isLeading, hMapped]
    rfl
  · simp only [Bool.not_eq_false', Bool.or_eq_true, Bool.and_eq_true, beq_iff_eq] at h
    obtain ((((hZero | hOne) | hMulticast) | hUnique) | hLink) | ⟨hFirst, hSecond⟩ := h
    · obtain ⟨segments⟩ := ip
      obtain rfl : segments = _ := eq_of_beq hZero
      decide
    · obtain ⟨segments⟩ := ip
      obtain rfl : segments = _ := eq_of_beq hOne
      decide
    · have hMask : (ip.segments.get 0).toNat &&& 0xff00 = 0xff00 := congrArg UInt16.toNat (eq_of_beq hMulticast)
      have hDiv : (ip.segments.get 0).toNat / 256 = 0xff := @div_of_and _ _ _ 8 8 hMask rfl hBound
      exact isRefusedText_of_segment (by decide : 0xff ∈ _) (by simp [Ipv6Addr.beginsWith, hDiv])
    · have hMask : (ip.segments.get 0).toNat &&& 0xfe00 = 0xfc00 := congrArg UInt16.toNat hUnique
      have hDiv : (ip.segments.get 0).toNat / 512 = 0x7e := @div_of_and _ _ _ 9 7 hMask rfl hBound
      obtain hByte | hByte : (ip.segments.get 0).toNat / 256 = 0xfc ∨ (ip.segments.get 0).toNat / 256 = 0xfd := by omega
      · exact isRefusedText_of_segment (by decide : 0xfc ∈ _) (by simp [Ipv6Addr.beginsWith, hByte])
      · exact isRefusedText_of_segment (by decide : 0xfd ∈ _) (by simp [Ipv6Addr.beginsWith, hByte])
    · have hMask : (ip.segments.get 0).toNat &&& 0xffc0 = 0xfe80 := congrArg UInt16.toNat hLink
      have hDiv : (ip.segments.get 0).toNat / 64 = 0x3fa := @div_of_and _ _ _ 6 10 hMask rfl hBound
      refine isRefusedText_of_segment (?_ : (ip.segments.get 0).toNat / 16 ∈ _) (by simp [Ipv6Addr.beginsWith])
      simp only [List.mem_cons, List.not_mem_nil, or_false]
      omega
    · have hWords : ip.segments.get 0 = 0x2001 ∧ ip.segments.get 1 = 0xdb8 := ⟨hFirst, hSecond⟩
      rw [isRefusedText, hWords.1, hWords.2]
      exact Bool.or_true _

end Ipv6

section Components

variable {PeerId : Type}

def tag : Protocol PeerId → String
  | .ip4 _ => "ip4"
  | .ip6 _ => "ip6"
  | .p2p _ => "p2p"
  | .tcp _ => "tcp"
  | .udp _ => "udp"
  | .quicV1 => "quic-v1"
  | .webTransport => "webtransport"
  | .wss path => if path = "/" then "wss" else "x-parity-wss"
  | .https => "https"
  | .tls => "tls"
  | .certhash _ => "certhash"
  | .other component => component

def tags : List String :=
  ["ip4", "ip6", "p2p", "tcp", "udp", "quic-v1", "webtransport", "wss", "x-parity-wss", "https", "tls", "certhash"]

def textOf (peerToString : PeerId → String) : Protocol PeerId → Option String
  | .ip4 ip => some (String.ofList ip.text)
  | .ip6 ip => some (String.ofList ip.text)
  | .p2p peer => some (peerToString peer)
  | _ => none

/-- Whether one component is what both sides have in the same place of one address. -/
structure Shows (peerToString : PeerId → String) (protocol : Protocol PeerId) (component : Component) : Prop where
  name : component.name = tag protocol
  value : ∀ text ∈ textOf peerToString protocol, component.value = some text
  unnamed : ∀ name, protocol = .other name → name ∉ tags

def peerOf : Protocol PeerId → Option PeerId
  | .p2p peer => some peer
  | _ => none

def IsSpecialUse : Protocol PeerId → Prop
  | .ip4 ip => Libp2p.isGlobalIpv4 ip = false ∨ isAroundDocumentation ip = true
  | .ip6 ip => isRefusedText ip = true
  | _ => False

def IsClientSecure (address : List (Protocol PeerId)) : Prop :=
  .webTransport ∈ address ∨ .wss "/" ∈ address ∨ .https ∈ address ∨ (.tls ∈ address ∧ .other "ws" ∈ address)

variable {peerToString : PeerId → String} {address : List (Protocol PeerId)} {components : List Component}

theorem tag_eq_iff {protocol : Protocol PeerId} (h : ∀ name, protocol = .other name → name ∉ tags) :
    (tag protocol = "webtransport" ↔ protocol = .webTransport) ∧ (tag protocol = "wss" ↔ protocol = .wss "/") ∧
      (tag protocol = "https" ↔ protocol = .https) ∧ (tag protocol = "tls" ↔ protocol = .tls) ∧
      (tag protocol = "ws" ↔ protocol = .other "ws") := by
  cases protocol with
  | wss path => by_cases hPath : path = "/" <;> simp [tag, hPath]
  | other name =>
    have hName := h name rfl
    simp only [tags, List.mem_cons, List.not_mem_nil, or_false, not_or] at hName
    simp [tag, hName]
  | _ => simp [tag]

theorem mem_names {name : String} {target : Protocol PeerId}
    (hShows : List.Forall₂ (Shows peerToString) address components)
    (hOne : ∀ protocol, (∀ name, protocol = .other name → name ∉ tags) → (tag protocol = name ↔ protocol = target)) :
    name ∈ components.map Component.name ↔ target ∈ address := by
  induction hShows with
  | nil => simp
  | cons hHead _ ih =>
    rw [List.map_cons, List.mem_cons, List.mem_cons, ih, hHead.name, eq_comm, hOne _ hHead.unnamed, eq_comm]

theorem isSecure_iff (hShows : List.Forall₂ (Shows peerToString) address components) :
    isSecure (components.map Component.name) = true ↔ IsClientSecure address := by
  simp only [isSecure, IsClientSecure, Bool.or_eq_true, Bool.and_eq_true, decide_eq_true_eq, or_assoc,
    mem_names hShows fun _ h => (tag_eq_iff h).1, mem_names hShows fun _ h => (tag_eq_iff h).2.1,
    mem_names hShows fun _ h => (tag_eq_iff h).2.2.1, mem_names hShows fun _ h => (tag_eq_iff h).2.2.2.1,
    mem_names hShows fun _ h => (tag_eq_iff h).2.2.2.2]

theorem Shows.isGlobal_iff {protocol : Protocol PeerId} {component : Component}
    (h : Shows peerToString protocol component) : isGlobal component = true ↔ ¬ IsSpecialUse protocol := by
  cases protocol with
  | ip4 ip =>
    rw [IsSpecialUse, ← isGlobalIpv4_text]
    simp [isGlobal, h.name, tag, h.value _ rfl]
  | ip6 ip =>
    simp [IsSpecialUse, isGlobal, h.name, tag, h.value _ rfl, isGlobalIpv6_text]
  | wss path => by_cases hPath : path = "/" <;> simp [isGlobal, IsSpecialUse, h.name, tag, hPath]
  | other name =>
    have hName := h.unnamed name rfl
    simp only [tags, List.mem_cons, List.not_mem_nil, or_false, not_or] at hName
    simp [isGlobal, IsSpecialUse, h.name, tag, hName]
  | _ => simp [isGlobal, IsSpecialUse, h.name, tag]

theorem isGlobal_iff (hShows : List.Forall₂ (Shows peerToString) address components) :
    (∀ component ∈ components, isGlobal component = true) ↔ ∀ protocol ∈ address, ¬ IsSpecialUse protocol := by
  induction hShows with
  | nil => simp
  | cons hHead _ ih => rw [List.forall_mem_cons, List.forall_mem_cons, ih, hHead.isGlobal_iff]

theorem Shows.isPeer {protocol : Protocol PeerId} {component : Component} (h : Shows peerToString protocol component) :
    component.name = "p2p" ↔ (peerOf protocol).isSome := by
  rw [h.name]
  cases protocol with
  | wss path => by_cases hPath : path = "/" <;> simp [tag, peerOf, hPath]
  | other name =>
    have hName := h.unnamed name rfl
    simp only [tags, List.mem_cons, List.not_mem_nil, or_false, not_or] at hName
    simp [tag, peerOf, hName]
  | _ => simp [tag, peerOf]

theorem peerComponents_value (hShows : List.Forall₂ (Shows peerToString) address components) :
    (peerComponents components).map Component.value =
      (address.filterMap peerOf).map fun peer => some (peerToString peer) := by
  induction hShows with
  | nil => rfl
  | @cons protocol component _ _ hHead _ ih =>
    have hPeer := hHead.isPeer
    rw [peerComponents, List.filter_cons, List.filterMap_cons]
    cases hOf : peerOf protocol with
    | none =>
      rw [hOf] at hPeer
      rw [if_neg (by simpa using hPeer)]
      exact ih
    | some peer =>
      rw [hOf] at hPeer
      have hValue : component.value = some (peerToString peer) := by
        cases protocol <;> cases hOf
        exact hHead.value _ rfl
      rw [if_pos (by simpa using hPeer), List.map_cons, List.map_cons, hValue]
      exact congrArg _ ih

theorem firstNames_iff_peer (hString : Function.Injective peerToString)
    (hShows : List.Forall₂ (Shows peerToString) address components) (signer : PeerId) :
    FirstNames components (peerToString signer) ↔ ∀ peer ∈ (address.filterMap peerOf).head?, peer = signer := by
  have hHead := congrArg List.head? (peerComponents_value hShows)
  rw [List.head?_map, List.head?_map] at hHead
  rw [FirstNames]
  cases hFirst : (peerComponents components).head? with
  | none =>
    rw [hFirst, Option.map_none, eq_comm, Option.map_eq_none_iff] at hHead
    rw [hHead]
    refine iff_of_true (fun first hMem => ?_) (fun peer hMem => ?_) <;> cases hMem
  | some first =>
    rw [hFirst, Option.map_some, eq_comm, Option.map_eq_some_iff] at hHead
    obtain ⟨peer, hPeer, hValue⟩ := hHead
    rw [hPeer]
    simp [← hValue, hString.eq_iff]

end Components

section Agreement

variable {PeerId : Type} {peerToString : PeerId → String} {address : List (Protocol PeerId)}
  {components : List Component} {signer : PeerId}

inductive BothRefuse (address : List (Protocol PeerId)) (signer : PeerId) : Prop
  | ip4 {ip : Ipv4Addr} (hMem : .ip4 ip ∈ address) (hSpecial : Libp2p.isGlobalIpv4 ip = false)
  | ip6 {ip : Ipv6Addr} (hMem : .ip6 ip ∈ address) (hSpecial : Libp2p.isGlobalIpv6 ip = false)
  | firstPeer {peer : PeerId} (hFirst : peer ∈ (address.filterMap peerOf).head?) (hOther : peer ≠ signer)
  | insecure (hNone : ∀ protocol ∈ address, protocol.isBrowserSecure = false)

/-- The reasons that the policy has by itself: it asks for a transport, and looks at each peer. -/
inductive PolicyRefuses (address : List (Protocol PeerId)) (signer : PeerId) : Prop
  | transport (hNone : ∀ protocol ∈ address, protocol.isTransport = false)
  | peer {peer : PeerId} (hMem : .p2p peer ∈ address) (hOther : peer ≠ signer)

/-- The reasons that the client has by itself: it asks for more than a security marker, and goes by wider blocks and
by the first characters of an IPv6 literal. -/
inductive ClientRefuses (address : List (Protocol PeerId)) : Prop
  | insecure (hNot : ¬ IsClientSecure address)
  | ip4 {ip : Ipv4Addr} (hMem : .ip4 ip ∈ address) (hAround : isAroundDocumentation ip = true)
  | ip6 {ip : Ipv6Addr} (hMem : .ip6 ip ∈ address) (hText : isRefusedText ip = true)

theorem IsClientSecure.isBrowserSecure (h : IsClientSecure address) :
    ∃ protocol ∈ address, protocol.isBrowserSecure = true := by
  obtain hMem | hMem | hMem | ⟨hMem, -⟩ := h
  · exact ⟨_, hMem, rfl⟩
  · exact ⟨_, hMem, rfl⟩
  · exact ⟨_, hMem, rfl⟩
  · exact ⟨_, hMem, rfl⟩

theorem mem_of_head?_peer {peer : PeerId} (h : peer ∈ (address.filterMap peerOf).head?) : .p2p peer ∈ address := by
  obtain ⟨protocol, hMem, hPeer⟩ := List.mem_filterMap.mp (List.mem_of_head? h)
  cases protocol <;> cases hPeer
  exact hMem

theorem refused_iff_policy : Libp2p.Refused address (some signer) .browser ↔
    BothRefuse address signer ∨ PolicyRefuses address signer := by
  constructor
  · rintro (⟨hMem, hSpecial⟩ | ⟨hMem, hSpecial⟩ | ⟨hMem, hExpected, hOther⟩ | hNone | ⟨-, hNone⟩)
    · exact .inl (.ip4 hMem hSpecial)
    · exact .inl (.ip6 hMem hSpecial)
    · obtain rfl := Option.some.inj hExpected
      exact .inr (.peer hMem hOther.symm)
    · exact .inr (.transport hNone)
    · exact .inl (.insecure hNone)
  · rintro ((⟨hMem, hSpecial⟩ | ⟨hMem, hSpecial⟩ | ⟨hFirst, hOther⟩ | hNone) | (hNone | ⟨hMem, hOther⟩))
    · exact .ip4 hMem hSpecial
    · exact .ip6 hMem hSpecial
    · exact .peer (mem_of_head?_peer hFirst) rfl hOther.symm
    · exact .insecure rfl hNone
    · exact .transport hNone
    · exact .peer hMem rfl hOther.symm

theorem refused_iff_client (hString : Function.Injective peerToString)
    (hShows : List.Forall₂ (Shows peerToString) address components) :
    browserEndpointAccepted components (peerToString signer) false ≠ true ↔
      BothRefuse address signer ∨ ClientRefuses address := by
  rw [ne_eq, browserEndpointAccepted_iff, firstNames_iff_peer hString hShows]
  constructor
  · intro h
    by_contra hNone
    rw [not_or] at hNone
    refine h ⟨⟨?_, fun _ => ?_⟩, ?_⟩
    · rw [isSecure_iff hShows]
      by_contra hNot
      exact hNone.2 (.insecure hNot)
    · rw [isGlobal_iff hShows]
      intro protocol hMem hSpecial
      cases protocol with
      | ip4 ip =>
        obtain hSpecial | hAround := hSpecial
        · exact hNone.1 (.ip4 hMem hSpecial)
        · exact hNone.2 (.ip4 hMem hAround)
      | ip6 ip => exact hNone.2 (.ip6 hMem hSpecial)
      | _ => exact hSpecial
    · intro peer hFirst
      by_contra hOther
      exact hNone.1 (.firstPeer hFirst hOther)
  · rintro hReason ⟨hScreened, hFirst⟩
    have hSecure := (isSecure_iff hShows).mp hScreened.secure
    have hGlobal := (isGlobal_iff hShows).mp (hScreened.global rfl)
    obtain (⟨hMem, hSpecial⟩ | ⟨hMem, hSpecial⟩ | ⟨hPeer, hOther⟩ | hNone) | (hNot | ⟨hMem, hAround⟩ | ⟨hMem, hText⟩) :=
      hReason
    · exact hGlobal _ hMem (.inl hSpecial)
    · exact hGlobal _ hMem (isRefusedText_of_special hSpecial)
    · exact hOther (hFirst _ hPeer)
    · obtain ⟨protocol, hMem, hMarked⟩ := hSecure.isBrowserSecure
      rw [hNone protocol hMem] at hMarked
      cases hMarked
    · exact hNot hSecure
    · exact hGlobal _ hMem (.inr hAround)
    · exact hGlobal _ hMem hText

variable [DecidableEq PeerId]

def PoliciesAgree (peerToString : PeerId → String) (address : List (Protocol PeerId)) (components : List Component)
    (signer : PeerId) : Prop :=
  EndpointPolicy.default.accepts address (some signer) .browser = true ↔
    browserEndpointAccepted components (peerToString signer) false = true

/-- An address is decided alike where both sides have a common reason, or each one of its own, or none has any. -/
theorem policiesAgree_iff (peerToString : PeerId → String) (hString : Function.Injective peerToString)
    (address : List (Protocol PeerId)) (components : List Component)
    (hShows : List.Forall₂ (Shows peerToString) address components) (signer : PeerId) :
    PoliciesAgree peerToString address components signer ↔
      BothRefuse address signer ∨ (PolicyRefuses address signer ↔ ClientRefuses address) := by
  have hPolicy := @refused_iff_policy PeerId address signer
  have hClient := @refused_iff_client _ _ _ _ signer hString hShows
  rw [Libp2p.refused_iff, ← Libp2p.accepts_iff] at hPolicy
  calc PoliciesAgree peerToString address components signer
    _ ↔ (EndpointPolicy.default.accepts address (some signer) .browser ≠ true ↔
          browserEndpointAccepted components (peerToString signer) false ≠ true) := not_iff_not.symm
    _ ↔ (BothRefuse address signer ∨ PolicyRefuses address signer ↔
          BothRefuse address signer ∨ ClientRefuses address) := by
      rw [ne_eq, hPolicy, hClient]
    _ ↔ BothRefuse address signer ∨ (PolicyRefuses address signer ↔ ClientRefuses address) := by
      by_cases hBoth : BothRefuse address signer <;> simp [hBoth]

inductive SamplePeer where
  | signer
  | stranger
  deriving DecidableEq, Repr

def SamplePeer.text : SamplePeer → String
  | .signer => signerId
  | .stranger => strangerId

theorem SamplePeer.text_injective : Function.Injective SamplePeer.text := by
  intro first second h
  cases first <;> cases second <;> first | rfl | exact absurd h (by decide)

def SampleAddress.protocols : SampleAddress → List (Protocol SamplePeer)
  | .direct => [.other "dns4", .tcp 443, .wss "/"]
  | .qualified => [.other "dns4", .tcp 443, .wss "/", .p2p .signer]
  | .relayed => [.other "dns4", .tcp 443, .wss "/", .p2p .signer, .other "p2p-circuit", .p2p .stranger]

theorem SampleAddress.shows (address : SampleAddress) :
    List.Forall₂ (Shows SamplePeer.text) address.protocols address.components := by
  have hPlain : ∀ (name : String) (value : Option String), name ∉ tags →
      Shows SamplePeer.text (.other name) ⟨name, value⟩ := fun name value hName =>
    ⟨rfl, nofun, fun _ hEq => by cases hEq; exact hName⟩
  have hTcp : Shows SamplePeer.text (.tcp 443) ⟨"tcp", some "443"⟩ := ⟨rfl, nofun, nofun⟩
  have hWss : Shows SamplePeer.text (.wss "/") ⟨"wss", none⟩ := ⟨rfl, nofun, nofun⟩
  have hPeer : ∀ peer : SamplePeer, Shows SamplePeer.text (.p2p peer) ⟨"p2p", some peer.text⟩ := fun peer =>
    ⟨rfl, fun _ hText => hText, nofun⟩
  cases address with
  | direct => exact .cons (hPlain _ _ (by decide)) (.cons hTcp (.cons hWss .nil))
  | qualified => exact .cons (hPlain _ _ (by decide)) (.cons hTcp (.cons hWss (.cons (hPeer .signer) .nil)))
  | relayed => exact .cons (hPlain _ _ (by decide)) (.cons hTcp (.cons hWss (.cons (hPeer .signer)
      (.cons (hPlain _ _ (by decide)) (.cons (hPeer .stranger) .nil)))))

theorem policiesAgree_iff_direct :
    PoliciesAgree SamplePeer.text SampleAddress.direct.protocols SampleAddress.direct.components .signer := by
  refine (policiesAgree_iff SamplePeer.text SamplePeer.text_injective _ _ (SampleAddress.shows .direct) .signer).mpr ?_
  refine .inr (iff_of_false ?_ ?_)
  · rintro (hNone | ⟨hMem, -⟩)
    · cases hNone (.tcp 443) (by decide)
    · simp [SampleAddress.protocols] at hMem
  · rintro (hNot | ⟨hMem, -⟩ | ⟨hMem, -⟩)
    · exact hNot (.inr (.inl (by decide)))
    · simp [SampleAddress.protocols] at hMem
    · simp [SampleAddress.protocols] at hMem

/-- An address that goes on to a stranger passes the client and not the policy. -/
theorem policiesAgree_relayed : ¬ ∀ address components expected,
    List.Forall₂ (Shows SamplePeer.text) address components →
      PoliciesAgree SamplePeer.text address components expected := by
  intro h
  have hAgree := h SampleAddress.relayed.protocols SampleAddress.relayed.components .signer
    (SampleAddress.shows .relayed)
  have hClient : browserEndpointAccepted SampleAddress.relayed.components SamplePeer.signer.text false = true := by
    decide
  have hPolicy := hAgree.mpr hClient
  exact absurd hPolicy (by decide)

end Agreement

end Resurrect.Browser
