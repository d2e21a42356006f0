import Resurrect.Libp2p.AddressText
import Resurrect.Libp2p.RecordRoundTrip
import Mathlib.Data.List.Forall2
import Mathlib.Data.List.Infix

/-! # Ethereum node records

The codec for raw EIP-778 records: a record of up to 300 bytes that the library
decodes and verifies, whose TCP and UDP sockets become endpoints as far as the
policy accepts them.
-/

namespace Resurrect.Libp2p

open Resurrect.Core

/-- What is used of the ENR library, and the text parser of multiaddresses. `decode` leaves the bytes behind
the record. -/
structure NativeLibrary extends Library where
  parse : String → Except String Multiaddr
  Enr : Type
  decode : Bytes → Except String (Enr × Bytes)
  ip4 : Enr → Option Ipv4Addr
  ip6 : Enr → Option Ipv6Addr
  tcp4 : Enr → Option UInt16
  tcp6 : Enr → Option UInt16
  udp4 : Enr → Option UInt16
  udp6 : Enr → Option UInt16
  nodeId : Enr → Bytes
  seq : Enr → UInt64

def maxEnrBytes : Nat := 300

def IpAddr.protocol : IpAddr → String
  | .v4 _ => "ip4"
  | .v6 _ => "ip6"

def IpAddr.text : IpAddr → String
  | .v4 ip => .ofList ip.text
  | .v6 ip => .ofList ip.text

section Endpoints

variable (library : NativeLibrary)

def socketText (ip : IpAddr) (transport : String) (port : UInt16) : String :=
  "/" ++ ip.protocol ++ "/" ++ ip.text ++ "/" ++ transport ++ "/" ++ Nat.repr port.toNat

def pushEndpoint (endpoints : List library.Multiaddr) (ip : IpAddr) (transport : String) (port : UInt16) :
    List library.Multiaddr :=
  match library.parse (socketText ip transport port) with
  | .ok address => endpoints ++ [address]
  | .error _ => endpoints

/-- One socket of the record, where both its parts are there. -/
def pushSocket {Ip : Type} (endpoints : List library.Multiaddr) (ipAddr : Ip → IpAddr) (ip : Option Ip)
    (transport : String) (port : Option UInt16) : List library.Multiaddr :=
  match ip, port with
  | some ip, some port => pushEndpoint library endpoints (ipAddr ip) transport port
  | _, _ => endpoints

def enrEndpoints (record : library.Enr) : List library.Multiaddr :=
  let endpoints := pushSocket library [] .v4 (library.ip4 record) "tcp" (library.tcp4 record)
  let endpoints := pushSocket library endpoints .v6 (library.ip6 record) "tcp" (library.tcp6 record)
  let endpoints := pushSocket library endpoints .v4 (library.ip4 record) "udp" (library.udp4 record)
  pushSocket library endpoints .v6 (library.ip6 record) "udp" (library.udp6 record)

end Endpoints

structure EnrCodec where
  policy : EndpointPolicy
  deriving DecidableEq, Repr

namespace EnrCodec

variable (library : NativeLibrary) (self : EnrCodec)

def decodeAndVerify (raw : Bytes) (dialContext : DialContext) : Except PeerRecordError PeerCandidate :=
  if raw.isEmpty ∨ maxEnrBytes < raw.length then .error (.invalidSize raw.length)
  else if dialContext = .browser then .error (.noUsableEndpoint dialContext)
  else match library.decode raw with
  | .error error =>
    if "Signature".toList <:+: error.toList then .error .invalidSignature else .error (.malformed error)
  | .ok (record, remaining) =>
    if !remaining.isEmpty then .error (.malformed "trailing bytes after ENR")
    else
      let endpoints := ((enrEndpoints library record).filter fun address =>
        self.policy.accepts (library.protocols address) none dialContext).map fun address =>
        (⟨library.toString address⟩ : Endpoint)
      if endpoints.isEmpty then .error (.noUsableEndpoint dialContext)
      else .ok {
        recordType := recordTypeEnr
        peerId := library.nodeId record
        sequence := library.seq record
        endpoints
        rawSignedRecord := raw
        expiresAt := 0
        source := .resurrectRegistry
        announcementBlock := none
        announcementLogIndex := none }

def codec : PeerRecordCodec := ⟨recordTypeEnr, self.decodeAndVerify library⟩

end EnrCodec

inductive Transport where
  | tcp
  | udp
  deriving DecidableEq, Repr

structure Socket where
  ip : IpAddr
  transport : Transport
  port : UInt16
  deriving DecidableEq, Repr

def Transport.name : Transport → String
  | .tcp => "tcp"
  | .udp => "udp"

namespace Socket

def text (self : Socket) : String :=
  socketText self.ip self.transport.name self.port

def protocols {PeerId : Type} (self : Socket) : List (Protocol PeerId) :=
  let ip := match self.ip with
    | .v4 ip => .ip4 ip
    | .v6 ip => .ip6 ip
  match self.transport with
  | .tcp => [ip, .tcp self.port]
  | .udp => [ip, .udp self.port]

end Socket

def socketOf {Ip : Type} (ipAddr : Ip → IpAddr) (transport : Transport) (ip : Option Ip) (port : Option UInt16) :
    Option Socket := do
  let ip ← ip
  let port ← port
  pure ⟨ipAddr ip, transport, port⟩

/-- What a record says can be dialed, in the order in which it is offered. -/
def NativeLibrary.sockets (library : NativeLibrary) (record : library.Enr) : List Socket :=
  (socketOf .v4 .tcp (library.ip4 record) (library.tcp4 record)).toList ++
    (socketOf .v6 .tcp (library.ip6 record) (library.tcp6 record)).toList ++
    (socketOf .v4 .udp (library.ip4 record) (library.udp4 record)).toList ++
    (socketOf .v6 .udp (library.ip6 record) (library.udp6 record)).toList

/-- An address that stands for a socket. -/
def Spells (library : NativeLibrary) (socket : Socket) (address : library.Multiaddr) : Prop :=
  library.protocols address = socket.protocols ∧ library.toString address = socket.text

/-- The texts of a record's sockets are read as the addresses they spell, and written back. -/
structure NativeLibrary.Lawful (library : NativeLibrary) : Prop where
  lawful : library.toLibrary.Lawful
  parse_text : ∀ record, ∀ socket ∈ library.sockets record, ∃ address,
    library.parse socket.text = .ok address ∧ Spells library socket address

section Sockets

variable {library : NativeLibrary}

/-- From a context without a browser's demands an endpoint is accepted for its address alone, from any other not
at all. -/
theorem accepts_socket {PeerId : Type} [DecidableEq PeerId] (policy : EndpointPolicy) (socket : Socket)
    (dialContext : DialContext) : policy.accepts (socket.protocols : List (Protocol PeerId)) none dialContext =
      (policy.acceptIp socket.ip && (dialContext == .nativeServer || dialContext == .mobile)) := by
  obtain ⟨ip, transport, port⟩ := socket
  cases ip <;> cases transport <;> cases dialContext <;>
    simp [Socket.protocols, EndpointPolicy.accepts, EndpointPolicy.acceptsFrom]

theorem spells_pushSocket {sockets : List Socket} {endpoints : List library.Multiaddr}
    (h : List.Forall₂ (Spells library) sockets endpoints) {Ip : Type} (ipAddr : Ip → IpAddr) (transport : Transport)
    (ip : Option Ip) (port : Option UInt16)
    (hParse : ∀ socket ∈ socketOf ipAddr transport ip port, ∃ address,
      library.parse socket.text = .ok address ∧ Spells library socket address) :
    List.Forall₂ (Spells library) (sockets ++ (socketOf ipAddr transport ip port).toList)
      (pushSocket library endpoints ipAddr ip transport.name port) := by
  cases ip with
  | none => exact (List.append_nil sockets).symm ▸ h
  | some ip =>
    cases port with
    | none => exact (List.append_nil sockets).symm ▸ h
    | some port =>
      obtain ⟨address, hText, hSpells⟩ := hParse ⟨ipAddr ip, transport, port⟩ rfl
      rw [Socket.text] at hText
      rw [pushSocket, pushEndpoint, hText]
      exact List.rel_append h (.cons hSpells .nil)

/-- The addresses a record is asked for are its sockets, none of them lost to the parser. -/
theorem spells_enrEndpoints (hLawful : library.Lawful) (record : library.Enr) :
    List.Forall₂ (Spells library) (library.sockets record) (enrEndpoints library record) := by
  have hParse := hLawful.parse_text record
  simp only [NativeLibrary.sockets, List.mem_append, Option.mem_toList] at hParse
  have hFirst := spells_pushSocket .nil .v4 .tcp (library.ip4 record) (library.tcp4 record)
    fun socket hMem => hParse socket (.inl (.inl (.inl hMem)))
  have hSecond := spells_pushSocket hFirst .v6 .tcp (library.ip6 record) (library.tcp6 record)
    fun socket hMem => hParse socket (.inl (.inl (.inr hMem)))
  have hThird := spells_pushSocket hSecond .v4 .udp (library.ip4 record) (library.udp4 record)
    fun socket hMem => hParse socket (.inl (.inr hMem))
  exact spells_pushSocket hThird .v6 .udp (library.ip6 record) (library.udp6 record)
    fun socket hMem => hParse socket (.inr hMem)

/-- The endpoints that are kept are the texts of the sockets whose address is accepted. -/
theorem map_filter_of_spells (accepts : List (Protocol library.PeerId) → Bool) {sockets : List Socket}
    {addresses : List library.Multiaddr} (h : List.Forall₂ (Spells library) sockets addresses) :
    ((addresses.filter fun address => accepts (library.protocols address)).map fun address =>
        (⟨library.toString address⟩ : Endpoint)) =
      (sockets.filter fun socket => accepts socket.protocols).map fun socket => ⟨socket.text⟩ := by
  induction h with
  | nil => rfl
  | cons hHead _ ih =>
    obtain ⟨hProtocols, hText⟩ := hHead
    rw [List.filter_cons, List.filter_cons, hProtocols]
    split
    · rw [List.map_cons, List.map_cons, hText, ih]
    · exact ih

/-- The endpoints of a record are the texts of its sockets on accepted addresses, for a node that dials sockets. -/
theorem accepted_enrEndpoints (hLawful : library.Lawful) (policy : EndpointPolicy) (record : library.Enr)
    (dialContext : DialContext) :
    (((enrEndpoints library record).filter fun address =>
      policy.accepts (library.protocols address) none dialContext).map fun address =>
        (⟨library.toString address⟩ : Endpoint)) =
      ((library.sockets record).filter fun socket =>
        policy.acceptIp socket.ip && (dialContext == .nativeServer || dialContext == .mobile)).map
          fun socket => ⟨socket.text⟩ := by
  rw [map_filter_of_spells (fun protocols => policy.accepts protocols none dialContext)
    (spells_enrEndpoints hLawful record)]
  simp only [accepts_socket]

theorem accepted_eq_nil_iff {sockets : List Socket} {accepts : Socket → Bool} :
    (((sockets.filter accepts).map fun socket => (⟨socket.text⟩ : Endpoint)).isEmpty = true) ↔
      ∀ socket ∈ sockets, accepts socket = false := by
  rw [List.isEmpty_iff, List.map_eq_nil_iff, List.filter_eq_nil_iff]
  simp only [Bool.not_eq_true]

end Sockets

/-- An ENR is taken exactly where it is one whole verified record of at most 300 bytes, for a native or mobile
node, with a socket on an address the policy accepts; all of these are its endpoints, TCP before UDP and IPv4
before IPv6. -/
theorem enr_accepted_iff {library : NativeLibrary} (hLawful : library.Lawful) (codec : EnrCodec) (raw : Bytes)
    (dialContext : DialContext) (candidate : PeerCandidate) :
    codec.decodeAndVerify library raw dialContext = .ok candidate ↔
      raw ≠ [] ∧ raw.length ≤ maxEnrBytes ∧ (dialContext = .nativeServer ∨ dialContext = .mobile) ∧
      ∃ record, library.decode raw = .ok (record, []) ∧
        (∃ socket ∈ library.sockets record, codec.policy.acceptIp socket.ip = true) ∧
        candidate = {
          recordType := recordTypeEnr
          peerId := library.nodeId record
          sequence := library.seq record
          endpoints := ((library.sockets record).filter fun socket => codec.policy.acceptIp socket.ip).map
            fun socket => ⟨socket.text⟩
          rawSignedRecord := raw
          expiresAt := 0
          source := .resurrectRegistry
          announcementBlock := none
          announcementLogIndex := none } := by
  have hIsEmpty : raw.isEmpty = true ↔ raw = [] := List.isEmpty_iff
  rw [EnrCodec.decodeAndVerify]
  split
  · rename_i hSize
    refine iff_of_false (by simp) ?_
    rintro ⟨hNonempty, hLength, -⟩
    rcases hSize with hEmpty | hLong
    · exact hNonempty (hIsEmpty.mp hEmpty)
    · omega
  rename_i hSize
  rw [not_or, hIsEmpty, not_lt] at hSize
  split
  · rename_i hBrowser
    subst hBrowser
    refine iff_of_false (by simp) ?_
    rintro ⟨-, -, hNative, -⟩
    simp at hNative
  split
  · rename_i error hDecode
    refine iff_of_false ?_ ?_
    · split <;> simp
    · rintro ⟨-, -, -, record, hRecord, -⟩
      simp [hDecode] at hRecord
  · rename_i record remaining hDecode
    rw [hDecode]
    split
    · rename_i hTrailing
      refine iff_of_false (by simp) ?_
      rintro ⟨-, -, -, _, hRecord, -⟩
      obtain ⟨-, rfl⟩ := Prod.mk.inj (Except.ok.inj hRecord)
      cases hTrailing
    rename_i hTrailing
    obtain rfl : remaining = [] := by simpa using hTrailing
    rw [accepted_enrEndpoints hLawful]
    cases hDial : dialContext == .nativeServer || dialContext == .mobile with
    | false =>
      rw [if_pos (by simp)]
      refine iff_of_false (by simp) ?_
      rintro ⟨-, -, hNative, -⟩
      rcases hNative with rfl | rfl <;> cases hDial
    | true =>
      have hNative : dialContext = .nativeServer ∨ dialContext = .mobile := by simpa using hDial
      simp only [Bool.and_true]
      split
      · rename_i hNone
        rw [accepted_eq_nil_iff] at hNone
        refine iff_of_false (by simp) ?_
        rintro ⟨-, -, -, _, hRecord, ⟨socket, hMem, hAccepted⟩, -⟩
        obtain ⟨rfl, -⟩ := Prod.mk.inj (Except.ok.inj hRecord)
        simp [hNone socket hMem] at hAccepted
      · rename_i hSome
        rw [accepted_eq_nil_iff] at hSome
        push Not at hSome
        obtain ⟨socket, hMem, hAccepted⟩ := hSome
        constructor
        · intro hOk
          obtain rfl := Except.ok.inj hOk
          exact ⟨hSize.1, hSize.2, hNative, record, rfl, ⟨socket, hMem, by simpa using hAccepted⟩, rfl⟩
        · rintro ⟨-, -, -, other, hRecord, -, rfl⟩
          obtain ⟨rfl, -⟩ := Prod.mk.inj (Except.ok.inj hRecord)
          rfl

/-- The example record of EIP-778, of a node on the loopback address. -/
def exampleRecord : Bytes :=
  [0xf8, 0x84, 0xb8, 0x40, 0x70, 0x98, 0xad, 0x86, 0x5b, 0x00, 0xa5, 0x82, 0x05, 0x19, 0x40, 0xcb,
    0x9c, 0xf3, 0x68, 0x36, 0x57, 0x24, 0x11, 0xa4, 0x72, 0x78, 0x78, 0x30, 0x77, 0x01, 0x15, 0x99,
    0xed, 0x5c, 0xd1, 0x6b, 0x76, 0xf2, 0x63, 0x5f, 0x4e, 0x23, 0x47, 0x38, 0xf3, 0x08, 0x13, 0xa8,
    0x9e, 0xb9, 0x13, 0x7e, 0x3e, 0x3d, 0xf5, 0x26, 0x6e, 0x3a, 0x1f, 0x11, 0xdf, 0x72, 0xec, 0xf1,
    0x14, 0x5c, 0xcb, 0x9c, 0x01, 0x82, 0x69, 0x64, 0x82, 0x76, 0x34, 0x82, 0x69, 0x70, 0x84, 0x7f,
    0x00, 0x00, 0x01, 0x89, 0x73, 0x65, 0x63, 0x70, 0x32, 0x35, 0x36, 0x6b, 0x31, 0xa1, 0x03, 0xca,
    0x63, 0x4c, 0xae, 0x0d, 0x49, 0xac, 0xb4, 0x01, 0xd8, 0xa4, 0xc6, 0xb6, 0xfe, 0x8c, 0x55, 0xb7,
    0x0d, 0x11, 0x5b, 0xf4, 0x00, 0x76, 0x9c, 0xc1, 0x40, 0x0f, 0x32, 0x58, 0xcd, 0x31, 0x38, 0x83,
    0x75, 0x64, 0x70, 0x82, 0x76, 0x5f]

def exampleNodeId : Bytes :=
  [0xa4, 0x48, 0xf2, 0x4c, 0x6d, 0x18, 0xe5, 0x75, 0x45, 0x3d, 0xb1, 0x31, 0x71, 0x56, 0x2b, 0x71,
    0x99, 0x98, 0x73, 0xdb, 0x5b, 0x28, 0x6d, 0xf9, 0x57, 0xaf, 0x19, 0x9e, 0xc9, 0x46, 0x17, 0xf7]

def exampleSocket : Socket := ⟨.v4 ⟨#v[127, 0, 0, 1]⟩, .udp, 30303⟩

/-- The libraries on the vectors, with the example record and its one address, `none`. -/
def exampleLibrary : NativeLibrary where
  toLibrary := { vectorLibrary with
    Multiaddr := Option VectorAddress
    toVec := fun address => address.elim [0x04, 0x7f, 0x00, 0x00, 0x01, 0x91, 0x02, 0x76, 0x5f] VectorAddress.toVec
    tryFrom := fun encoded =>
      if encoded = [0x04, 0x7f, 0x00, 0x00, 0x01, 0x91, 0x02, 0x76, 0x5f] then .ok none
      else (vectorLibrary.tryFrom encoded).map some
    toString := fun address => address.elim exampleSocket.text VectorAddress.toString
    protocols := fun address => address.elim exampleSocket.protocols VectorAddress.protocols }
  parse text := if text = exampleSocket.text then .ok none else .error "invalid multiaddr"
  Enr := Unit
  decode raw := if raw = exampleRecord then .ok ((), []) else .error "Unexpected list"
  ip4 _ := some ⟨#v[127, 0, 0, 1]⟩
  ip6 _ := none
  tcp4 _ := none
  tcp6 _ := none
  udp4 _ := some 30303
  udp6 _ := none
  nodeId _ := exampleNodeId
  seq _ := 1

theorem exampleLibrary_parse : exampleLibrary.parse exampleSocket.text = .ok none := by
  change (if exampleSocket.text = exampleSocket.text then .ok none else .error "invalid multiaddr") =
    (.ok none : Except String (Option VectorAddress))
  exact if_pos rfl

theorem exampleLibrary_decode : exampleLibrary.decode exampleRecord = .ok ((), []) := by
  change (if exampleRecord = exampleRecord then .ok ((), []) else .error "Unexpected list") =
    (.ok ((), []) : Except String (Unit × Bytes))
  exact if_pos rfl

theorem exampleLibrary_lawful : exampleLibrary.Lawful where
  lawful := {
    tryDecode_encode := vectorLibrary_lawful.tryDecode_encode
    fromBytes_toBytes := vectorLibrary_lawful.fromBytes_toBytes
    tryFrom_toVec := by
      intro address
      cases address with
      | none => rfl
      | some address => cases address <;> rfl
    verify_sign := vectorLibrary_lawful.verify_sign }
  parse_text := by
    intro record socket hMem
    obtain rfl : socket = exampleSocket := List.mem_singleton.mp hMem
    exact ⟨none, exampleLibrary_parse, rfl, rfl⟩

theorem enr_accepted_example :
    (⟨.localTesting⟩ : EnrCodec).decodeAndVerify exampleLibrary exampleRecord .nativeServer = .ok {
      recordType := recordTypeEnr
      peerId := exampleNodeId
      sequence := 1
      endpoints := [⟨"/ip4/127.0.0.1/udp/30303"⟩]
      rawSignedRecord := exampleRecord
      expiresAt := 0
      source := .resurrectRegistry
      announcementBlock := none
      announcementLogIndex := none } := by
  have hSize : exampleRecord.length ≤ maxEnrBytes := by decide +kernel
  have hText : exampleSocket.text = "/ip4/127.0.0.1/udp/30303" := by decide +kernel
  rw [← hText]
  exact (enr_accepted_iff exampleLibrary_lawful ⟨.localTesting⟩ exampleRecord .nativeServer _).mpr
    ⟨List.cons_ne_nil _ _, hSize, .inl rfl, (), exampleLibrary_decode,
      ⟨exampleSocket, List.mem_singleton_self _, rfl⟩, rfl⟩

end Resurrect.Libp2p
