import Resurrect.Foundation.Wire
import Resurrect.Libp2p.EndpointPolicy

/-! # Signed peer records

The libp2p signed envelope around a peer record: `sign_peer_record` and the
codec's `decode_and_verify`. Keys, peer ids and multiaddresses are those of a
library that is given; `RoundTrips` and `Lawful` are what its documentation
promises.
-/

namespace Resurrect.Libp2p

open Resurrect.Core

/-- What is used of the libp2p identity, multiaddress and protobuf libraries. -/
structure Library where
  Keypair : Type
  PublicKey : Type
  PeerId : Type
  Multiaddr : Type
  peerIdDecidableEq : DecidableEq PeerId
  publicKey : Keypair → PublicKey
  sign : Keypair → Bytes → Except String Bytes
  encodeProtobuf : PublicKey → Bytes
  tryDecodeProtobuf : Bytes → Except String PublicKey
  verify : PublicKey → Bytes → Bytes → Bool
  fromPublicKey : PublicKey → PeerId
  toBytes : PeerId → Bytes
  fromBytes : Bytes → Except String PeerId
  toVec : Multiaddr → Bytes
  tryFrom : Bytes → Except String Multiaddr
  toString : Multiaddr → String
  protocols : Multiaddr → List (Protocol PeerId)
  envelopeError : Bytes → String
  recordError : Bytes → String

instance (library : Library) : DecidableEq library.PeerId := library.peerIdDecidableEq

/-- Encodings that round trip. -/
structure Library.RoundTrips (library : Library) : Prop where
  tryDecode_encode : ∀ key, library.tryDecodeProtobuf (library.encodeProtobuf key) = .ok key
  fromBytes_toBytes : ∀ peer, library.fromBytes (library.toBytes peer) = .ok peer
  tryFrom_toVec : ∀ address, library.tryFrom (library.toVec address) = .ok address

/-- Encodings that round trip, and signatures that verify. -/
structure Library.Lawful (library : Library) : Prop extends library.RoundTrips where
  verify_sign : ∀ keypair message signature, library.sign keypair message = .ok signature →
    library.verify (library.publicKey keypair) message signature = true

def peerRecordDomain : Bytes := "libp2p-peer-record".toList.map fun c => UInt8.ofNat c.toNat

/-- Multicodec `libp2p-peer-record` encoded as unsigned varint. -/
def peerRecordPayloadType : Bytes := [0x03, 0x01]

def maxEnvelopeBytes : Nat := 4096

/-- How deeply a decoder nests messages and groups. -/
def recursionLimit : Nat := 100

structure Envelope where
  publicKey : Bytes
  payloadType : Bytes
  payload : Bytes
  signature : Bytes
  deriving DecidableEq, Repr

structure AddressInfo where
  multiaddr : Bytes
  deriving DecidableEq, Repr

structure PeerRecordMessage where
  peerId : Bytes
  sequence : UInt64
  addresses : List AddressInfo
  deriving DecidableEq, Repr

section Messages

open Wire

namespace Envelope

def mergeField (self : Envelope) (field : Wire.Field) : Except DecodeError Envelope :=
  match field.tag with
  | 1 => field.value.delimited.map fun raw => { self with publicKey := raw }
  | 2 => field.value.delimited.map fun raw => { self with payloadType := raw }
  | 3 => field.value.delimited.map fun raw => { self with payload := raw }
  | 5 => field.value.delimited.map fun raw => { self with signature := raw }
  | _ => .ok self

def decode (buf : Bytes) : Except DecodeError Envelope :=
  Wire.decode recursionLimit mergeField ⟨[], [], [], []⟩ buf

def encodeToVec (self : Envelope) : Bytes :=
  encodeBytes 1 self.publicKey ++ (encodeBytes 2 self.payloadType ++
    (encodeBytes 3 self.payload ++ encodeBytes 5 self.signature))

end Envelope

namespace AddressInfo

def mergeField (self : AddressInfo) (field : Wire.Field) : Except DecodeError AddressInfo :=
  match field.tag with
  | 1 => field.value.delimited.map fun raw => { self with multiaddr := raw }
  | _ => .ok self

def decode (buf : Bytes) : Except DecodeError AddressInfo :=
  Wire.decode (recursionLimit - 1) mergeField ⟨[]⟩ buf

def encodeToVec (self : AddressInfo) : Bytes := encodeBytes 1 self.multiaddr

end AddressInfo

namespace PeerRecordMessage

def mergeField (self : PeerRecordMessage) (field : Wire.Field) : Except DecodeError PeerRecordMessage :=
  match field.tag with
  | 1 => field.value.delimited.map fun raw => { self with peerId := raw }
  | 2 => field.value.integer.map fun value => { self with sequence := .ofNat value }
  | 3 => do
    let info ← AddressInfo.decode (← field.value.delimited)
    return { self with addresses := self.addresses ++ [info] }
  | _ => .ok self

def decode (buf : Bytes) : Except DecodeError PeerRecordMessage :=
  Wire.decode recursionLimit mergeField ⟨[], 0, []⟩ buf

def encodeToVec (self : PeerRecordMessage) : Bytes :=
  encodeBytes 1 self.peerId ++ (encodeUint64 2 self.sequence.toNat ++
    (self.addresses.map AddressInfo.encodeToVec).flatMap (encodeDelimited 3))

end PeerRecordMessage

end Messages

def appendUvarint (buffer : Bytes) (value : Nat) : Bytes :=
  if 0x80 ≤ value then appendUvarint (buffer ++ [(UInt8.ofNat value &&& 0x7f) ||| 0x80]) (value >>> 7)
  else buffer ++ [UInt8.ofNat value]
termination_by value
decreasing_by
  rw [Nat.shiftRight_eq_div_pow]
  omega

def signingInput (payloadType payload : Bytes) : Bytes :=
  let input := appendUvarint [] peerRecordDomain.length ++ peerRecordDomain
  let input := appendUvarint input payloadType.length ++ payloadType
  appendUvarint input payload.length ++ payload

inductive SignedPeerRecordError where
  | noEndpoints
  | tooManyEndpoints (maximum : Nat)
  | signing (message : String)
  | envelopeTooLarge (size : Nat)
  deriving DecidableEq, Repr

def SignedPeerRecordError.toString : SignedPeerRecordError → String
  | .noEndpoints => "a signed peer record requires at least one endpoint"
  | .tooManyEndpoints maximum => "signed peer record exceeds the endpoint cap of " ++ Nat.repr maximum
  | .signing message => "failed to sign peer record: " ++ message
  | .envelopeTooLarge size => "signed envelope is too large: " ++ Nat.repr size ++ " bytes"

section Sign

variable (library : Library)

def recordPayload (keypair : library.Keypair) (sequence : UInt64) (addresses : List library.Multiaddr) :
    PeerRecordMessage where
  peerId := library.toBytes (library.fromPublicKey (library.publicKey keypair))
  sequence
  addresses := addresses.map fun address => ⟨library.toVec address⟩

def sealedEnvelope (keypair : library.Keypair) (payload signature : Bytes) : Envelope where
  publicKey := library.encodeProtobuf (library.publicKey keypair)
  payloadType := peerRecordPayloadType
  payload
  signature

def sealPayload (keypair : library.Keypair) (payload : Bytes) : Except SignedPeerRecordError Bytes :=
  match library.sign keypair (signingInput peerRecordPayloadType payload) with
  | .error error => .error (.signing error)
  | .ok signature =>
    let encoded := (sealedEnvelope library keypair payload signature).encodeToVec
    if maxEnvelopeBytes < encoded.length then .error (.envelopeTooLarge encoded.length) else .ok encoded

def signPeerRecord (keypair : library.Keypair) (sequence : UInt64) (addresses : List library.Multiaddr) :
    Except SignedPeerRecordError Bytes :=
  if addresses.isEmpty then .error .noEndpoints
  else if defaultMaxEndpointsPerRecord < addresses.length then
    .error (.tooManyEndpoints defaultMaxEndpointsPerRecord)
  else sealPayload library keypair (recordPayload library keypair sequence addresses).encodeToVec

end Sign

structure Libp2pPeerRecordCodec where
  policy : EndpointPolicy
  maxEndpoints : Nat
  deriving DecidableEq, Repr

namespace Libp2pPeerRecordCodec

def default : Libp2pPeerRecordCodec := ⟨.default, defaultMaxEndpointsPerRecord⟩

variable (library : Library) (self : Libp2pPeerRecordCodec)

def usableEndpoints (peer : library.PeerId) (dialContext : DialContext) (addresses : List AddressInfo) :
    List Endpoint :=
  ((addresses.filterMap fun info => (library.tryFrom info.multiaddr).toOption).filter fun address =>
    self.policy.accepts (library.protocols address) (some peer) dialContext).map fun address =>
    ⟨library.toString address⟩

def decodeAndVerify (raw : Bytes) (dialContext : DialContext) : Except PeerRecordError PeerCandidate :=
  if raw.isEmpty ∨ maxEnvelopeBytes < raw.length then .error (.invalidSize raw.length)
  else match Envelope.decode raw with
  | .error _ => .error (.malformed (library.envelopeError raw))
  | .ok envelope =>
    if envelope.payloadType ≠ peerRecordPayloadType then
      .error (.malformed "unexpected signed-envelope payload type")
    else match library.tryDecodeProtobuf envelope.publicKey with
    | .error error => .error (.malformed error)
    | .ok publicKey =>
      if !library.verify publicKey (signingInput envelope.payloadType envelope.payload) envelope.signature then
        .error .invalidSignature
      else match PeerRecordMessage.decode envelope.payload with
      | .error _ => .error (.malformed (library.recordError envelope.payload))
      | .ok payload =>
        let derivedPeer := library.fromPublicKey publicKey
        match library.fromBytes payload.peerId with
        | .error error => .error (.malformed error)
        | .ok payloadPeer =>
          if derivedPeer ≠ payloadPeer then .error .identityMismatch
          else if self.maxEndpoints < payload.addresses.length then
            .error (.tooManyEndpoints self.maxEndpoints)
          else
            let endpoints := self.usableEndpoints library derivedPeer dialContext payload.addresses
            if endpoints.isEmpty then .error (.noUsableEndpoint dialContext)
            else .ok {
              recordType := recordTypeLibp2p
              peerId := library.toBytes derivedPeer
              sequence := payload.sequence
              endpoints
              rawSignedRecord := raw
              expiresAt := 0
              source := .resurrectRegistry
              announcementBlock := none
              announcementLogIndex := none }

def codec : PeerRecordCodec := ⟨recordTypeLibp2p, self.decodeAndVerify library⟩

end Libp2pPeerRecordCodec

end Resurrect.Libp2p
