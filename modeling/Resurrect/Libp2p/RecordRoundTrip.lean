import Resurrect.Libp2p.SignedPeerRecord

/-! # Signed records read back

What `sign_peer_record` writes, `decode_and_verify` reads: the encoders leave out
default values and the decoders put them back, so zero sequences and empty
addresses survive, and only the policy decides what becomes of the record.
-/

namespace Resurrect.Libp2p

open Resurrect.Core Wire

section Messages

theorem Envelope.decode_encodeToVec (envelope : Envelope) (h : envelope.encodeToVec.length < 2 ^ 64) :
    Envelope.decode envelope.encodeToVec = .ok envelope := by
  obtain ⟨publicKey, payloadType, payload, signature⟩ := envelope
  simp only [encodeToVec, List.length_append] at h
  have hKey := length_encodeBytes 1 publicKey
  have hType := length_encodeBytes 2 payloadType
  have hPayload := length_encodeBytes 3 payload
  have hSignature := length_encodeBytes 5 signature
  replace hKey : publicKey.length < 2 ^ 64 := by omega
  replace hType : payloadType.length < 2 ^ 64 := by omega
  replace hPayload : payload.length < 2 ^ 64 := by omega
  replace hSignature : signature.length < 2 ^ 64 := by omega
  have hFields : readFields recursionLimit (encodeToVec ⟨publicKey, payloadType, payload, signature⟩) =
      .ok (bytesField 1 publicKey ++ (bytesField 2 payloadType ++ (bytesField 3 payload ++
        (bytesField 5 signature ++ [])))) := by
    rw [encodeToVec, ← List.append_nil (encodeBytes 5 signature)]
    apply readFields_encodeBytes (by decide) (by decide) hKey
    apply readFields_encodeBytes (by decide) (by decide) hType
    apply readFields_encodeBytes (by decide) (by decide) hPayload
    apply readFields_encodeBytes (by decide) (by decide) hSignature
    exact readFields_nil _
  rw [Envelope.decode, decode_of_readFields hFields]
  refine (foldlM_bytesField (fun hNil => ?_) rfl).trans ?_
  · rw [hNil]
  refine (foldlM_bytesField (fun hNil => ?_) rfl).trans ?_
  · rw [hNil]
  refine (foldlM_bytesField (fun hNil => ?_) rfl).trans ?_
  · rw [hNil]
  refine (foldlM_bytesField (fun hNil => ?_) rfl).trans ?_
  · rw [hNil]
  rfl

theorem Envelope.length_payload_le (envelope : Envelope) :
    envelope.payload.length ≤ envelope.encodeToVec.length := by
  have hPayload := length_encodeBytes 3 envelope.payload
  simp only [encodeToVec, List.length_append]
  omega

theorem Envelope.encodeToVec_ne_nil (envelope : Envelope) (h : envelope.payloadType ≠ []) :
    envelope.encodeToVec ≠ [] := by
  have hType := length_encodeBytes 2 envelope.payloadType
  have hPos := List.length_pos_iff.mpr h
  apply List.ne_nil_of_length_pos
  simp only [encodeToVec, List.length_append]
  omega

theorem AddressInfo.decode_encodeToVec (info : AddressInfo) (h : info.encodeToVec.length < 2 ^ 64) :
    AddressInfo.decode info.encodeToVec = .ok info := by
  obtain ⟨multiaddr⟩ := info
  have hAddress := length_encodeBytes 1 multiaddr
  have hFields : readFields (recursionLimit - 1) (encodeToVec ⟨multiaddr⟩) =
      .ok (bytesField 1 multiaddr ++ []) := by
    rw [encodeToVec, ← List.append_nil (encodeBytes 1 multiaddr)]
    exact readFields_encodeBytes (by decide) (by decide) (hAddress.trans_lt h) (readFields_nil _)
  rw [AddressInfo.decode, decode_of_readFields hFields]
  refine (foldlM_bytesField (fun hNil => ?_) rfl).trans ?_
  · rw [hNil]
  rfl

theorem PeerRecordMessage.foldlM_addresses (self : PeerRecordMessage) (infos : List AddressInfo)
    (h : ∀ info ∈ infos, info.encodeToVec.length < 2 ^ 64) :
    ((infos.map AddressInfo.encodeToVec).map fun raw => Wire.Field.mk 3 (.lengthDelimited raw)).foldlM mergeField self =
      .ok { self with addresses := self.addresses ++ infos } := by
  induction infos generalizing self with
  | nil => simp only [List.map_nil, List.foldlM_nil, List.append_nil]; rfl
  | cons info infos ih =>
    have hInfo := info.decode_encodeToVec (h info (by simp))
    have hMerge : mergeField self ⟨3, .lengthDelimited info.encodeToVec⟩ =
        .ok { self with addresses := self.addresses ++ [info] } := by
      change (AddressInfo.decode info.encodeToVec >>= _) = _
      rw [hInfo]
      rfl
    rw [List.map_cons, List.map_cons, List.foldlM_cons, hMerge]
    refine (ih _ fun other hMem => h other (by simp [hMem])).trans ?_
    simp

theorem PeerRecordMessage.decode_encodeToVec (message : PeerRecordMessage)
    (h : message.encodeToVec.length < 2 ^ 64) : PeerRecordMessage.decode message.encodeToVec = .ok message := by
  obtain ⟨peerId, sequence, addresses⟩ := message
  simp only [encodeToVec, List.length_append] at h
  have hPeer := length_encodeBytes 1 peerId
  replace hPeer : peerId.length < 2 ^ 64 := by omega
  have hInfo : ∀ raw ∈ addresses.map AddressInfo.encodeToVec, raw.length < 2 ^ 64 := by
    intro raw hMem
    have hRaw := length_flatMap_encodeDelimited 3 hMem
    omega
  have hFields : readFields recursionLimit (encodeToVec ⟨peerId, sequence, addresses⟩) =
      .ok (bytesField 1 peerId ++ (uint64Field 2 sequence.toNat ++
        (addresses.map AddressInfo.encodeToVec).map fun raw => ⟨3, .lengthDelimited raw⟩)) := by
    apply readFields_encodeBytes (by decide) (by decide) hPeer
    apply readFields_encodeUint64 (by decide) (by decide) sequence.toNat_lt
    exact readFields_repeated _ (by decide) (by decide) hInfo
  have hSequence : mergeField ⟨peerId, 0, []⟩ ⟨2, .varint sequence.toNat⟩ = .ok ⟨peerId, sequence, []⟩ := by
    change Except.ok (PeerRecordMessage.mk peerId (UInt64.ofNat sequence.toNat) []) = _
    rw [UInt64.ofNat_toNat]
  rw [PeerRecordMessage.decode, decode_of_readFields hFields]
  refine (foldlM_bytesField (fun hNil => ?_) rfl).trans ?_
  · rw [hNil]
  refine (foldlM_uint64Field (fun hZero => ?_) hSequence).trans ?_
  · have hSequence : sequence = 0 := UInt64.toNat_inj.mp hZero
    rw [hSequence]
  exact foldlM_addresses _ addresses fun info hMem => hInfo _ (List.mem_map_of_mem hMem)

end Messages

section Signed

variable {library : Library} {keypair : library.Keypair} {sequence : UInt64}
  {addresses : List library.Multiaddr} {bytes : Bytes}

theorem signPeerRecord_eq_ok : signPeerRecord library keypair sequence addresses = .ok bytes ↔
    addresses ≠ [] ∧ addresses.length ≤ defaultMaxEndpointsPerRecord ∧
    ∃ signature, library.sign keypair (signingInput peerRecordPayloadType
        (recordPayload library keypair sequence addresses).encodeToVec) = .ok signature ∧
      bytes = (sealedEnvelope library keypair
        (recordPayload library keypair sequence addresses).encodeToVec signature).encodeToVec ∧
      bytes.length ≤ maxEnvelopeBytes := by
  rw [signPeerRecord]
  constructor
  · intro h
    split at h
    · cases h
    split at h
    · cases h
    rename_i hSome hMany
    rw [sealPayload] at h
    split at h
    · cases h
    dsimp only at h
    split at h
    · cases h
    rename_i signature hSign hSize
    obtain rfl := Except.ok.inj h
    exact ⟨mt List.isEmpty_iff.mpr hSome, not_lt.mp hMany, signature, hSign, rfl, not_lt.mp hSize⟩
  · rintro ⟨hSome, hMany, signature, hSign, rfl, hSize⟩
    rw [if_neg (mt List.isEmpty_iff.mp hSome), if_neg (not_lt.mpr hMany), sealPayload, hSign]
    exact if_neg (not_lt.mpr hSize)

end Signed

namespace Libp2pPeerRecordCodec

variable (library : Library) (self : Libp2pPeerRecordCodec)

def acceptedEndpoints (peer : library.PeerId) (dialContext : DialContext) (addresses : List library.Multiaddr) :
    List Endpoint :=
  (addresses.filter fun address => self.policy.accepts (library.protocols address) (some peer) dialContext).map
    fun address => ⟨library.toString address⟩

/-- What becomes of a record that decodes and verifies. -/
def judge (peer : library.PeerId) (sequence : UInt64) (addresses : List library.Multiaddr)
    (dialContext : DialContext) (raw : Bytes) : Except PeerRecordError PeerCandidate :=
  if self.maxEndpoints < addresses.length then .error (.tooManyEndpoints self.maxEndpoints)
  else if ∀ address ∈ addresses,
      self.policy.accepts (library.protocols address) (some peer) dialContext = false then
    .error (.noUsableEndpoint dialContext)
  else .ok {
    recordType := recordTypeLibp2p
    peerId := library.toBytes peer
    sequence
    endpoints := self.acceptedEndpoints library peer dialContext addresses
    rawSignedRecord := raw
    expiresAt := 0
    source := .resurrectRegistry
    announcementBlock := none
    announcementLogIndex := none }

variable {library}

theorem usableEndpoints_toVec (hRoundTrips : library.RoundTrips) (peer : library.PeerId) (dialContext : DialContext)
    (addresses : List library.Multiaddr) :
    self.usableEndpoints library peer dialContext (addresses.map fun address => ⟨library.toVec address⟩) =
      self.acceptedEndpoints library peer dialContext addresses := by
  have hTry : (fun address => (library.tryFrom (library.toVec address)).toOption) = some := by
    funext address
    rw [hRoundTrips.tryFrom_toVec]
    rfl
  rw [usableEndpoints, acceptedEndpoints, List.filterMap_map]
  change (List.filter _ (List.filterMap (fun address => (library.tryFrom (library.toVec address)).toOption)
    addresses)).map _ = _
  rw [hTry, List.filterMap_some]

theorem length_acceptedEndpoints_le (peer : library.PeerId) (dialContext : DialContext)
    (addresses : List library.Multiaddr) :
    (self.acceptedEndpoints library peer dialContext addresses).length ≤ addresses.length := by
  rw [acceptedEndpoints, List.length_map]
  exact List.length_filter_le _ _

theorem acceptedEndpoints_eq_nil {peer : library.PeerId} {dialContext : DialContext}
    {addresses : List library.Multiaddr} : self.acceptedEndpoints library peer dialContext addresses = [] ↔
      ∀ address ∈ addresses, self.policy.accepts (library.protocols address) (some peer) dialContext = false := by
  rw [acceptedEndpoints, List.map_eq_nil_iff, List.filter_eq_nil_iff]
  simp only [Bool.not_eq_true]

/-- An envelope of the expected type with a verifying signature over a record of the signer. -/
structure Opens (library : Library) (raw : Bytes) (envelope : Envelope) (publicKey : library.PublicKey)
    (payload : PeerRecordMessage) : Prop where
  nonempty : raw ≠ []
  size_le : raw.length ≤ maxEnvelopeBytes
  decode_eq : Envelope.decode raw = .ok envelope
  payloadType_eq : envelope.payloadType = peerRecordPayloadType
  key_eq : library.tryDecodeProtobuf envelope.publicKey = .ok publicKey
  verified : library.verify publicKey (signingInput peerRecordPayloadType envelope.payload) envelope.signature
  payload_eq : PeerRecordMessage.decode envelope.payload = .ok payload
  peer_eq : library.fromBytes payload.peerId = .ok (library.fromPublicKey publicKey)

theorem opens_sealed (hLawful : library.Lawful) {keypair : library.Keypair} {sequence : UInt64}
    {addresses : List library.Multiaddr} {signature : Bytes}
    (hSign : library.sign keypair (signingInput peerRecordPayloadType
      (recordPayload library keypair sequence addresses).encodeToVec) = .ok signature)
    (hSize : (sealedEnvelope library keypair (recordPayload library keypair sequence addresses).encodeToVec
      signature).encodeToVec.length ≤ maxEnvelopeBytes) :
    Opens library (sealedEnvelope library keypair (recordPayload library keypair sequence addresses).encodeToVec
        signature).encodeToVec
      (sealedEnvelope library keypair (recordPayload library keypair sequence addresses).encodeToVec signature)
      (library.publicKey keypair) (recordPayload library keypair sequence addresses) := by
  have hWord : maxEnvelopeBytes < 2 ^ 64 := by decide
  have hPayload := Envelope.length_payload_le (sealedEnvelope library keypair
    (recordPayload library keypair sequence addresses).encodeToVec signature)
  constructor
  · exact Envelope.encodeToVec_ne_nil _ (List.cons_ne_nil _ _)
  · exact hSize
  · exact Envelope.decode_encodeToVec _ (hSize.trans_lt hWord)
  · rfl
  · exact hLawful.tryDecode_encode _
  · exact hLawful.verify_sign _ _ _ hSign
  · exact PeerRecordMessage.decode_encodeToVec _ ((hPayload.trans hSize).trans_lt hWord)
  · exact hLawful.fromBytes_toBytes _

theorem decodeAndVerify_of_opens {raw : Bytes} {envelope : Envelope} {publicKey : library.PublicKey}
    {payload : PeerRecordMessage} (h : Opens library raw envelope publicKey payload) (dialContext : DialContext) :
    self.decodeAndVerify library raw dialContext =
      if self.maxEndpoints < payload.addresses.length then .error (.tooManyEndpoints self.maxEndpoints)
      else if (self.usableEndpoints library (library.fromPublicKey publicKey) dialContext
          payload.addresses).isEmpty then .error (.noUsableEndpoint dialContext)
      else .ok {
        recordType := recordTypeLibp2p
        peerId := library.toBytes (library.fromPublicKey publicKey)
        sequence := payload.sequence
        endpoints := self.usableEndpoints library (library.fromPublicKey publicKey) dialContext payload.addresses
        rawSignedRecord := raw
        expiresAt := 0
        source := .resurrectRegistry
        announcementBlock := none
        announcementLogIndex := none } := by
  have hSize : ¬ (raw.isEmpty ∨ maxEnvelopeBytes < raw.length) := by
    rw [List.isEmpty_iff]
    exact not_or.mpr ⟨h.nonempty, not_lt.mpr h.size_le⟩
  rw [decodeAndVerify, if_neg hSize, h.decode_eq]
  dsimp only
  rw [if_neg (not_not.mpr h.payloadType_eq), h.key_eq, h.payloadType_eq]
  dsimp only
  rw [h.verified, h.payload_eq]
  dsimp only
  rw [h.peer_eq]
  simp

theorem decodeAndVerify_signed (hLawful : library.Lawful) {keypair : library.Keypair} {sequence : UInt64}
    {addresses : List library.Multiaddr} {bytes : Bytes}
    (h : signPeerRecord library keypair sequence addresses = .ok bytes) (dialContext : DialContext) :
    self.decodeAndVerify library bytes dialContext =
      self.judge library (library.fromPublicKey (library.publicKey keypair)) sequence addresses dialContext bytes := by
  obtain ⟨-, -, signature, hSign, rfl, hSize⟩ := signPeerRecord_eq_ok.mp h
  have hOpens := opens_sealed hLawful hSign hSize
  have hUsable := self.usableEndpoints_toVec hLawful.toRoundTrips (library.fromPublicKey (library.publicKey keypair))
    dialContext addresses
  rw [self.decodeAndVerify_of_opens hOpens, judge]
  simp only [recordPayload, List.length_map, hUsable, List.isEmpty_iff, acceptedEndpoints_eq_nil]

end Libp2pPeerRecordCodec

/-- Signed records round trip: a signed record is judged by its own addresses, whatever the policy, the
context and the cap, and signing succeeds exactly on one to sixteen addresses that fit an envelope. -/
theorem signPeerRecord_roundTrip {library : Library} (hLawful : library.Lawful) (keypair : library.Keypair)
    (sequence : UInt64) (addresses : List library.Multiaddr) :
    (∀ bytes, signPeerRecord library keypair sequence addresses = .ok bytes →
      ∀ (codec : Libp2pPeerRecordCodec) (dialContext : DialContext),
        codec.decodeAndVerify library bytes dialContext =
          codec.judge library (library.fromPublicKey (library.publicKey keypair)) sequence addresses
            dialContext bytes) ∧
    ((∃ bytes, signPeerRecord library keypair sequence addresses = .ok bytes) ↔
      1 ≤ addresses.length ∧ addresses.length ≤ 16 ∧
      ∃ signature, library.sign keypair (signingInput peerRecordPayloadType
          (recordPayload library keypair sequence addresses).encodeToVec) = .ok signature ∧
        (sealedEnvelope library keypair (recordPayload library keypair sequence addresses).encodeToVec
          signature).encodeToVec.length ≤ 4096) := by
  refine ⟨fun bytes h codec dialContext => codec.decodeAndVerify_signed hLawful h dialContext, ?_⟩
  constructor
  · rintro ⟨bytes, h⟩
    obtain ⟨hSome, hMany, signature, hSign, rfl, hSize⟩ := signPeerRecord_eq_ok.mp h
    exact ⟨List.length_pos_iff.mpr hSome, hMany, signature, hSign, hSize⟩
  · rintro ⟨hSome, hMany, signature, hSign, hSize⟩
    exact ⟨_, signPeerRecord_eq_ok.mpr ⟨List.length_pos_iff.mp hSome, hMany, signature, hSign, rfl, hSize⟩⟩

/-- The key of the signed record vectors, as its protobuf encoding. -/
def vectorKey : Bytes :=
  [0x08, 0x01, 0x12, 0x20] ++ [0xea, 0x4a, 0x6c, 0x63, 0xe2, 0x9c, 0x52, 0x0a, 0xbe, 0xf5, 0x50, 0x7b, 0x13, 0x2e, 0xc5, 0xf9,
    0x95, 0x47, 0x76, 0xae, 0xbe, 0xbe, 0x7b, 0x92, 0x42, 0x1e, 0xea, 0x69, 0x14, 0x46, 0xd2, 0x2c]

def vectorPeerId : Bytes := [0x00, 0x24] ++ vectorKey

inductive VectorAddress where
  | browser
  | native
  deriving DecidableEq, Repr

def VectorAddress.toVec (address : VectorAddress) : Bytes :=
  let seedExample : Bytes := [0x73, 0x65, 0x65, 0x64, 0x2e, 0x65, 0x78, 0x61, 0x6d, 0x70, 0x6c, 0x65]
  match address with
  | .browser => [0x36, 0x0c] ++ seedExample ++ [0x06, 0x01, 0xbb, 0xde, 0x03]
  | .native => [0x36, 0x0c] ++ seedExample ++ [0x06, 0x0f, 0xa1]

def VectorAddress.toString : VectorAddress → String
  | .browser => "/dns4/seed.example/tcp/443/wss"
  | .native => "/dns4/seed.example/tcp/4001"

def VectorAddress.protocols : VectorAddress → List (Protocol Unit)
  | .browser => [.other "dns4", .tcp 443, .wss "/"]
  | .native => [.other "dns4", .tcp 4001]

def vectorMessage (sequence : UInt64) (address : VectorAddress) : Bytes :=
  signingInput peerRecordPayloadType (PeerRecordMessage.mk vectorPeerId sequence [⟨address.toVec⟩]).encodeToVec

/-- The Ed25519 signatures of the two vectors. -/
def browserSignature : Bytes :=
  [0x66, 0x7e, 0xb4, 0xe9, 0x04, 0x1e, 0x32, 0x0f, 0xd0, 0x34, 0xbd, 0xc1, 0xcc, 0xcc, 0x1c, 0xeb,
    0x3c, 0x73, 0xfc, 0x3f, 0x0b, 0x8e, 0x2c, 0x2b, 0x95, 0x94, 0x8f, 0x87, 0x92, 0x78, 0x1a, 0x16,
    0x81, 0x6c, 0x30, 0xbe, 0x1f, 0x0e, 0x3c, 0x6d, 0x9b, 0x3d, 0x02, 0x2c, 0x9b, 0xb1, 0x39, 0x21,
    0x37, 0xdc, 0x80, 0xd3, 0xba, 0x14, 0x2b, 0x35, 0xc2, 0xc7, 0x27, 0xba, 0x51, 0x7b, 0xd5, 0x00]

def nativeSignature : Bytes :=
  [0x90, 0x45, 0xe1, 0xd8, 0xbc, 0x7d, 0x0a, 0xf2, 0x54, 0xc3, 0x46, 0x19, 0x34, 0x77, 0xdd, 0x2d,
    0xbd, 0xf2, 0xed, 0x98, 0x47, 0xd6, 0xe0, 0x14, 0x72, 0xf6, 0xf7, 0x61, 0x17, 0x49, 0xf7, 0x2f,
    0x81, 0x60, 0xbc, 0x3c, 0x24, 0x76, 0x9b, 0x90, 0x50, 0xbe, 0x47, 0xff, 0x14, 0x1f, 0xc3, 0x13,
    0x3e, 0x43, 0x69, 0xe6, 0x11, 0xf5, 0xa6, 0xe4, 0xa6, 0x5f, 0xc8, 0xfe, 0xee, 0x8a, 0x5d, 0x09]

/-- The libraries on the key, the addresses and the two messages of the vectors. -/
def vectorLibrary : Library where
  Keypair := Unit
  PublicKey := Unit
  PeerId := Unit
  Multiaddr := VectorAddress
  peerIdDecidableEq := inferInstance
  publicKey _ := ()
  sign _ message :=
    if message = vectorMessage 42 .browser then .ok browserSignature
    else if message = vectorMessage 43 .native then .ok nativeSignature
    else .error "no vector"
  encodeProtobuf _ := vectorKey
  tryDecodeProtobuf encoded := if encoded = vectorKey then .ok () else .error "no vector"
  verify _ message signature :=
    decide (message = vectorMessage 42 .browser ∧ signature = browserSignature ∨
      message = vectorMessage 43 .native ∧ signature = nativeSignature)
  fromPublicKey _ := ()
  toBytes _ := vectorPeerId
  fromBytes encoded := if encoded = vectorPeerId then .ok () else .error "no vector"
  toVec := VectorAddress.toVec
  tryFrom encoded :=
    if encoded = VectorAddress.browser.toVec then .ok .browser
    else if encoded = VectorAddress.native.toVec then .ok .native
    else .error "no vector"
  toString := VectorAddress.toString
  protocols := VectorAddress.protocols
  envelopeError _ := "failed to decode Protobuf message"
  recordError _ := "failed to decode Protobuf message"

theorem vectorLibrary_lawful : vectorLibrary.Lawful where
  tryDecode_encode _ := rfl
  fromBytes_toBytes _ := rfl
  tryFrom_toVec := by
    intro address
    cases address <;> rfl
  verify_sign := by
    intro _ message signature hSign
    change (if message = vectorMessage 42 .browser then _ else _) = _ at hSign
    apply decide_eq_true
    split at hSign
    · rename_i hBrowser
      exact .inl ⟨hBrowser, (Except.ok.inj hSign).symm⟩
    · split at hSign
      · rename_i hNative
        exact .inr ⟨hNative, (Except.ok.inj hSign).symm⟩
      · cases hSign

def browserRecord : Bytes :=
  [0x0a, 0x24, 0x08, 0x01, 0x12, 0x20, 0xea, 0x4a, 0x6c, 0x63, 0xe2, 0x9c, 0x52, 0x0a, 0xbe, 0xf5,
    0x50, 0x7b, 0x13, 0x2e, 0xc5, 0xf9, 0x95, 0x47, 0x76, 0xae, 0xbe, 0xbe, 0x7b, 0x92, 0x42, 0x1e,
    0xea, 0x69, 0x14, 0x46, 0xd2, 0x2c, 0x12, 0x02, 0x03, 0x01, 0x1a, 0x41, 0x0a, 0x26, 0x00, 0x24,
    0x08, 0x01, 0x12, 0x20, 0xea, 0x4a, 0x6c, 0x63, 0xe2, 0x9c, 0x52, 0x0a, 0xbe, 0xf5, 0x50, 0x7b,
    0x13, 0x2e, 0xc5, 0xf9, 0x95, 0x47, 0x76, 0xae, 0xbe, 0xbe, 0x7b, 0x92, 0x42, 0x1e, 0xea, 0x69,
    0x14, 0x46, 0xd2, 0x2c, 0x10, 0x2a, 0x1a, 0x15, 0x0a, 0x13, 0x36, 0x0c, 0x73, 0x65, 0x65, 0x64,
    0x2e, 0x65, 0x78, 0x61, 0x6d, 0x70, 0x6c, 0x65, 0x06, 0x01, 0xbb, 0xde, 0x03, 0x2a, 0x40, 0x66,
    0x7e, 0xb4, 0xe9, 0x04, 0x1e, 0x32, 0x0f, 0xd0, 0x34, 0xbd, 0xc1, 0xcc, 0xcc, 0x1c, 0xeb, 0x3c,
    0x73, 0xfc, 0x3f, 0x0b, 0x8e, 0x2c, 0x2b, 0x95, 0x94, 0x8f, 0x87, 0x92, 0x78, 0x1a, 0x16, 0x81,
    0x6c, 0x30, 0xbe, 0x1f, 0x0e, 0x3c, 0x6d, 0x9b, 0x3d, 0x02, 0x2c, 0x9b, 0xb1, 0x39, 0x21, 0x37,
    0xdc, 0x80, 0xd3, 0xba, 0x14, 0x2b, 0x35, 0xc2, 0xc7, 0x27, 0xba, 0x51, 0x7b, 0xd5, 0x00]

theorem signPeerRecord_roundTrip_browser :
    Libp2pPeerRecordCodec.default.decodeAndVerify vectorLibrary browserRecord .browser = .ok {
      recordType := recordTypeLibp2p
      peerId := vectorPeerId
      sequence := 42
      endpoints := [⟨"/dns4/seed.example/tcp/443/wss"⟩]
      rawSignedRecord := browserRecord
      expiresAt := 0
      source := .resurrectRegistry
      announcementBlock := none
      announcementLogIndex := none } := by
  have hSigned : signPeerRecord vectorLibrary () 42 [VectorAddress.browser] = .ok browserRecord := by
    decide +kernel
  have hDecoded := (signPeerRecord_roundTrip vectorLibrary_lawful () 42 [VectorAddress.browser]).1 browserRecord
    hSigned .default .browser
  exact hDecoded.trans (by decide +kernel)

end Resurrect.Libp2p
