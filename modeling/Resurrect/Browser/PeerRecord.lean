import Resurrect.Browser.Scanner
import Resurrect.Libp2p.RecordRoundTrip

/-! # Signed peer records in the browser client

`decodeBrowserPeerRecord`: opening a signed record, and which of its addresses a
browser may be given. Envelopes, keys and multiaddresses are those of the libp2p
packages, which are given; an address is looked at through its components.
-/

namespace Resurrect.Browser

open Hex Numeral Interaction

/-- A component of a multiaddress, with its protocol name and its value as a text. -/
structure Component where
  name : String
  value : Option String
  deriving DecidableEq, Repr

/-- `Number` of a part of a dotted text, where it is a plain numeral or empty. -/
def number (part : List Char) : Option Nat :=
  if part = [] then some 0 else if part.all Char.isDigit then some (value part) else none

def isGlobalIpv4 (value : String) : Bool :=
  match (value.toList.splitOn '.').map number with
  | [some first, some second, some third, some fourth] =>
    if 255 < first ∨ 255 < second ∨ 255 < third ∨ 255 < fourth then false
    else !(first == 0 || first == 10 || first == 127 || 224 ≤ first ||
      (first == 100 && 64 ≤ second && second ≤ 127) ||
      (first == 169 && second == 254) ||
      (first == 172 && 16 ≤ second && second ≤ 31) ||
      (first == 192 && second == 168) ||
      (first == 192 && second == 0) ||
      (first == 198 && (second == 18 || second == 19)) ||
      (first == 198 && second == 51) ||
      (first == 203 && second == 0))
  | _ => false

def startsWith (value : String) (start : List Char) : Bool := start.isPrefixOf value.toList

def isGlobalIpv6 (value : String) : Bool :=
  let lower := toLowerCase value
  !(startsWith lower [':', ':'] || startsWith lower ['f', 'c'] || startsWith lower ['f', 'd'] ||
    startsWith lower ['f', 'e', '8'] || startsWith lower ['f', 'e', '9'] || startsWith lower ['f', 'e', 'a'] ||
    startsWith lower ['f', 'e', 'b'] || startsWith lower ['f', 'f'] ||
    startsWith lower ['2', '0', '0', '1', ':', 'd', 'b', '8'])

def isSecure (names : List String) : Bool :=
  "webtransport" ∈ names || "wss" ∈ names || "https" ∈ names || ("tls" ∈ names && "ws" ∈ names)

/-- Whether a component is no IP literal of a special-use range. -/
def isGlobal (component : Component) : Bool :=
  if component.name = "ip4" ∧ component.value.any (fun value => !isGlobalIpv4 value) then false
  else if component.name = "ip6" ∧ component.value.any (fun value => !isGlobalIpv6 value) then false
  else true

def browserEndpointAccepted (components : List Component) (expectedPeerId : String) (allowPrivate : Bool) : Bool :=
  if ¬ isSecure (components.map Component.name) then false
  else
    let peer := (components.find? fun component => component.name = "p2p").bind Component.value
    if peer.any fun peer => peer ≠ expectedPeerId then false
    else if allowPrivate then true
    else components.all isGlobal

structure RecordEnvelope (PublicKey : Type) where
  publicKey : PublicKey
  payloadType : Bytes
  payload : Bytes

structure PeerRecord (PeerId Multiaddr : Type) where
  peerId : PeerId
  multiaddrs : List Multiaddr
  seqNumber : Nat

/-- What is used of the peer record, peer id and multiaddress packages. -/
structure RecordLibrary where
  PublicKey : Type
  PeerId : Type
  Multiaddr : Type
  peerIdDecidableEq : DecidableEq PeerId
  openAndCertify : Bytes → String → Except String (RecordEnvelope PublicKey)
  createFromProtobuf : Bytes → Except String (PeerRecord PeerId Multiaddr)
  peerIdFromPublicKey : PublicKey → PeerId
  peerIdToString : PeerId → String
  getComponents : Multiaddr → List Component
  toString : Multiaddr → String
  multiaddr : String → Option Multiaddr

instance (library : RecordLibrary) : DecidableEq library.PeerId := library.peerIdDecidableEq

/-- Texts that are read back, and peer components that name a peer. -/
structure RecordLibrary.Lawful (library : RecordLibrary) : Prop where
  multiaddr_toString : ∀ address, library.multiaddr (library.toString address) = some address
  named : ∀ address, ∀ component ∈ library.getComponents address, component.name = "p2p" → component.value.isSome

def domain : String := "libp2p-peer-record"
def codec : Bytes := [0x03, 0x01]
def maxRecordBytes : Nat := 4096

def PeerRecord.positiveInteger (value : Int) (field : String) : Except String Nat := do
  ensure (value.natAbs ≤ maxSafeInteger ∧ 1 ≤ value) (field ++ " must be a positive integer")
  pure value.toNat

variable (library : RecordLibrary)

def endpointsOf (record : PeerRecord library.PeerId library.Multiaddr) (allowPrivate : Bool) : List String :=
  (record.multiaddrs.filter fun address => browserEndpointAccepted (library.getComponents address)
    (library.peerIdToString record.peerId) allowPrivate).map library.toString

def decodeBrowserPeerRecord (rawRecord : String) (validUntil blockNumber logIndex : Nat) (options : RecordOptions) :
    Except String BrowserPeerCandidate := do
  let bytes ← hexToBytes rawRecord
  ensure (¬ (bytes.length = 0 ∨ maxRecordBytes < bytes.length)) "invalid signed record size"
  let envelope ← library.openAndCertify bytes domain
  ensure (envelope.payloadType = codec) "unexpected envelope payload type"
  let record ← library.createFromProtobuf envelope.payload
  ensure (record.peerId = library.peerIdFromPublicKey envelope.publicKey) "signed peer ID does not match signing key"
  let maximum ← PeerRecord.positiveInteger (options.maxEndpoints.getD 16) "maxEndpoints"
  ensure (record.multiaddrs.length ≤ maximum) "signed record exceeds endpoint cap"
  let endpoints := endpointsOf library record (options.allowPrivateEndpoints.getD false)
  ensure (¬ endpoints.isEmpty) "signed record has no browser-dialable endpoint"
  pure {
    peerId := library.peerIdToString record.peerId
    sequence := record.seqNumber
    endpoints := endpoints
    rawSignedRecord := hexText (spell bytes)
    validUntil := validUntil
    blockNumber := blockNumber
    logIndex := logIndex }

section Screening

variable {components : List Component} {expectedPeerId : String} {allowPrivate : Bool}

/-- The components that name a peer. -/
def peerComponents (components : List Component) : List Component :=
  components.filter fun component => component.name = "p2p"

/-- What the client asks of an address besides its first peer component. -/
structure Screened (components : List Component) (allowPrivate : Bool) : Prop where
  secure : isSecure (components.map Component.name) = true
  global : allowPrivate = false → ∀ component ∈ components, isGlobal component = true

theorem find?_peer (components : List Component) :
    components.find? (fun component => component.name = "p2p") = (peerComponents components).head? := by
  induction components with
  | nil => rfl
  | cons first rest ih =>
    rw [List.find?_cons, peerComponents, List.filter_cons]
    cases hName : decide (first.name = "p2p")
    · exact ih
    · rfl

/-- Whether the first peer component, if it names a peer, names the one that is expected. -/
def FirstNames (components : List Component) (expectedPeerId : String) : Prop :=
  ∀ first ∈ (peerComponents components).head?, ∀ peer ∈ first.value, peer = expectedPeerId

theorem firstNames_iff : FirstNames components expectedPeerId ↔
    (((peerComponents components).head?.bind Component.value).any fun peer => peer ≠ expectedPeerId) = false := by
  rw [FirstNames]
  cases (peerComponents components).head? with
  | none => simp
  | some first => cases hValue : first.value <;> simp [hValue]

/-- Of the peer components, the first alone is compared. -/
theorem browserEndpointAccepted_iff : browserEndpointAccepted components expectedPeerId allowPrivate = true ↔
    Screened components allowPrivate ∧ FirstNames components expectedPeerId := by
  rw [browserEndpointAccepted, find?_peer, firstNames_iff]
  dsimp only
  split
  · rename_i hInsecure
    exact iff_of_false Bool.false_ne_true fun h => hInsecure h.1.secure
  · rename_i hSecure
    rw [not_not] at hSecure
    split
    · rename_i hOther
      rw [hOther]
      exact iff_of_false Bool.false_ne_true fun h => Bool.false_ne_true h.2.symm
    · rename_i hNames
      rw [Bool.not_eq_true] at hNames
      cases allowPrivate with
      | true => exact iff_of_true rfl ⟨⟨hSecure, nofun⟩, hNames⟩
      | false =>
        rw [if_neg Bool.false_ne_true, List.all_eq_true]
        exact ⟨fun h => ⟨⟨hSecure, fun _ => h⟩, hNames⟩, fun h => h.1.global rfl⟩

end Screening

section Signer

variable {library : RecordLibrary} {rawRecord : String} {options : RecordOptions}

/-- What a record is presented as, where it is well formed, signed by its own peer, and within the cap. -/
structure Presented (library : RecordLibrary) (rawRecord : String) (options : RecordOptions) (bytes : Bytes)
    (envelope : RecordEnvelope library.PublicKey) (record : PeerRecord library.PeerId library.Multiaddr) : Prop where
  read : hexToBytes rawRecord = .ok bytes
  size : ¬ (bytes.length = 0 ∨ maxRecordBytes < bytes.length)
  opened : library.openAndCertify bytes domain = .ok envelope
  payloadType : envelope.payloadType = codec
  decoded : library.createFromProtobuf envelope.payload = .ok record
  signer : record.peerId = library.peerIdFromPublicKey envelope.publicKey
  cap : ∃ maximum, PeerRecord.positiveInteger (options.maxEndpoints.getD 16) "maxEndpoints" = .ok maximum ∧
    record.multiaddrs.length ≤ maximum

theorem decodeBrowserPeerRecord_eq_ok {validUntil blockNumber logIndex : Nat} {candidate : BrowserPeerCandidate} :
    decodeBrowserPeerRecord library rawRecord validUntil blockNumber logIndex options = .ok candidate ↔
      ∃ bytes envelope record, Presented library rawRecord options bytes envelope record ∧
        endpointsOf library record (options.allowPrivateEndpoints.getD false) ≠ [] ∧
        candidate = ⟨library.peerIdToString record.peerId, record.seqNumber,
          endpointsOf library record (options.allowPrivateEndpoints.getD false), hexText (spell bytes), validUntil,
          blockNumber, logIndex⟩ := by
  simp only [decodeBrowserPeerRecord, bind_eq_ok, ensure_eq_ok, decide_eq_true_eq]
  constructor
  · rintro ⟨bytes, hBytes, -, hSize, envelope, hEnvelope, -, hType, record, hRecord, -, hSigner, maximum, hMaximum, -,
      hCap, -, hSome, hCandidate⟩
    refine ⟨bytes, envelope, record, ⟨hBytes, hSize, hEnvelope, hType, hRecord, hSigner, maximum, hMaximum, hCap⟩, ?_,
      (Except.ok.inj hCandidate).symm⟩
    rwa [List.isEmpty_iff] at hSome
  · rintro ⟨bytes, envelope, record, h, hSome, rfl⟩
    obtain ⟨maximum, hMaximum, hCap⟩ := h.cap
    exact ⟨bytes, h.read, (), h.size, envelope, h.opened, (), h.payloadType, record, h.decoded, (), h.signer, maximum,
      hMaximum, (), hCap, (), by rwa [List.isEmpty_iff], rfl⟩

end Signer

section Relayed

open Libp2p (vectorKey vectorPeerId browserRecord peerRecordPayloadType)

/-- The key of another peer, as its protobuf encoding. -/
def strangerKey : Bytes :=
  [0x08, 0x01, 0x12, 0x20] ++ [0x13, 0x98, 0xf6, 0x2c, 0x6d, 0x1a, 0x45, 0x7c, 0x51, 0xba, 0x6a, 0x4b, 0x5f, 0x3d, 0xbd, 0x2f,
    0x69, 0xfc, 0xa9, 0x32, 0x16, 0x21, 0x8d, 0xc8, 0x99, 0x7e, 0x41, 0x6b, 0xd1, 0x7d, 0x93, 0xca]

/-- The address of the vectors, the same with its signer behind it, and one through the signer to the stranger. -/
inductive SampleAddress where
  | direct
  | qualified
  | relayed
  deriving DecidableEq, Repr

def SampleAddress.bytes : SampleAddress → Bytes
  | .direct => Libp2p.VectorAddress.browser.toVec
  | .qualified => Libp2p.VectorAddress.browser.toVec ++ [0xa5, 0x03, 0x26] ++ vectorPeerId
  | .relayed => Libp2p.VectorAddress.browser.toVec ++ [0xa5, 0x03, 0x26] ++ vectorPeerId ++ [0xa2, 0x02] ++
      [0xa5, 0x03, 0x26] ++ [0x00, 0x24] ++ strangerKey

def signerId : String := "12D3KooWRawPbxPtP1eZaJpumGnyWX2DcUyd3RQnydr3eAto4Az7"
def strangerId : String := "12D3KooWB8sCGZCrwr79HtabLAn95qyPQx6RYHXjEbiD6QKou7ww"

def SampleAddress.components : SampleAddress → List Component
  | .direct => [⟨"dns4", some "seed.example"⟩, ⟨"tcp", some "443"⟩, ⟨"wss", none⟩]
  | .qualified => [⟨"dns4", some "seed.example"⟩, ⟨"tcp", some "443"⟩, ⟨"wss", none⟩, ⟨"p2p", some signerId⟩]
  | .relayed => [⟨"dns4", some "seed.example"⟩, ⟨"tcp", some "443"⟩, ⟨"wss", none⟩, ⟨"p2p", some signerId⟩,
      ⟨"p2p-circuit", none⟩, ⟨"p2p", some strangerId⟩]

def SampleAddress.text : SampleAddress → String
  | .direct => "/dns4/seed.example/tcp/443/wss"
  | .qualified => "/dns4/seed.example/tcp/443/wss/p2p/" ++ signerId
  | .relayed => "/dns4/seed.example/tcp/443/wss/p2p/" ++ signerId ++ "/p2p-circuit/p2p/" ++ strangerId

def SampleAddress.sequence : SampleAddress → Nat
  | .direct => 42
  | .qualified => 45
  | .relayed => 44

def SampleAddress.payload (address : SampleAddress) : Bytes :=
  (Libp2p.PeerRecordMessage.mk vectorPeerId (UInt64.ofNat address.sequence) [⟨address.bytes⟩]).encodeToVec

-- The Ed25519 signatures of the vectors' key on the two records that are not vectors.

def qualifiedSignature : Bytes :=
  [0x49, 0x57, 0x78, 0x0f, 0x04, 0xe3, 0x83, 0xba, 0x7a, 0xdb, 0x74, 0x21, 0x8d, 0x2f, 0xed, 0xd6,
    0xc4, 0x11, 0x1a, 0x0c, 0xb4, 0x78, 0x10, 0xcc, 0x12, 0x78, 0x3f, 0xd4, 0x05, 0x22, 0x15, 0xb5,
    0xf0, 0xf2, 0x88, 0x09, 0xba, 0x78, 0x90, 0xc1, 0x8d, 0xdb, 0x11, 0x10, 0x6d, 0x9a, 0xcc, 0xc7,
    0x56, 0xca, 0x61, 0xdf, 0x04, 0x7e, 0x99, 0x70, 0xdd, 0x00, 0xb5, 0x0f, 0x64, 0x9f, 0x94, 0x0c]

def relayedSignature : Bytes :=
  [0xea, 0xf6, 0x84, 0xd6, 0x95, 0xc4, 0x43, 0x28, 0xb7, 0x09, 0x30, 0x5d, 0xe1, 0x4b, 0x54, 0x38,
    0x46, 0x9a, 0xb0, 0x25, 0xee, 0x33, 0x00, 0x0d, 0x2a, 0xd1, 0xbf, 0x96, 0x01, 0x91, 0x8c, 0xcc,
    0xd2, 0x8f, 0x31, 0x99, 0xd7, 0x98, 0xd5, 0x43, 0x02, 0xd9, 0x2e, 0x6c, 0x66, 0xe4, 0x90, 0x79,
    0x1a, 0x62, 0xb9, 0x80, 0x2e, 0xf4, 0x92, 0xce, 0x4c, 0x7a, 0x77, 0x8e, 0x66, 0xb0, 0x68, 0x0a]

def sealSample (address : SampleAddress) (signature : Bytes) : Bytes :=
  (Libp2p.Envelope.mk vectorKey peerRecordPayloadType address.payload signature).encodeToVec

def SampleAddress.record : SampleAddress → Bytes
  | .direct => browserRecord
  | .qualified => sealSample .qualified qualifiedSignature
  | .relayed => sealSample .relayed relayedSignature

def samples : List SampleAddress := [.direct, .qualified, .relayed]

def openSample (bytes : Bytes) (asked : String) : Except String (RecordEnvelope Unit) :=
  if asked ≠ domain then .error "signature is not valid"
  else
    match samples.find? fun address => address.record = bytes with
    | some address => .ok ⟨(), codec, address.payload⟩
    | none => .error "no sample"

def readSample (payload : Bytes) : Except String (PeerRecord Unit SampleAddress) :=
  match samples.find? fun address => address.payload = payload with
  | some address => .ok ⟨(), [address], address.sequence⟩
  | none => .error "no sample"

def SampleAddress.ofText (text : String) : Option SampleAddress := samples.find? fun address => address.text = text

theorem SampleAddress.ofText_text (address : SampleAddress) : SampleAddress.ofText address.text = some address := by
  cases address <;> decide +kernel

theorem SampleAddress.named (address : SampleAddress) :
    ∀ component ∈ address.components, component.name = "p2p" → component.value.isSome := by
  cases address <;> decide +kernel

theorem openSample_record (address : SampleAddress) :
    openSample address.record domain = .ok ⟨(), codec, address.payload⟩ := by
  have hFound : samples.find? (fun sample => sample.record = address.record) = some address := by
    cases address <;> decide +kernel
  rw [openSample, if_neg (not_not.mpr rfl), hFound]

theorem readSample_payload (address : SampleAddress) :
    readSample address.payload = .ok ⟨(), [address], address.sequence⟩ := by
  have hFound : samples.find? (fun sample => sample.payload = address.payload) = some address := by
    cases address <;> decide +kernel
  rw [readSample, hFound]

/-- The packages on the key of the vectors and on the sample records. -/
def sampleLibrary : RecordLibrary where
  PublicKey := Unit
  PeerId := Unit
  Multiaddr := SampleAddress
  peerIdDecidableEq := inferInstance
  openAndCertify := openSample
  createFromProtobuf := readSample
  peerIdFromPublicKey _ := ()
  peerIdToString _ := signerId
  getComponents := SampleAddress.components
  toString := SampleAddress.text
  multiaddr := SampleAddress.ofText

theorem presented_sample (address : SampleAddress) :
    Presented sampleLibrary (hexText (spell address.record)) ⟨none, none⟩ address.record
      ⟨(), codec, address.payload⟩ ⟨(), [address], address.sequence⟩ where
  read := hexToBytes_hexText (map_toLower_spell _)
  size := by cases address <;> decide +kernel
  opened := openSample_record address
  payloadType := rfl
  decoded := readSample_payload address
  signer := rfl
  cap := ⟨16, by decide, Nat.one_le_ofNat⟩

end Relayed

end Resurrect.Browser
