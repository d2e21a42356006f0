import Resurrect.Libp2p.RecordRoundTrip
import Mathlib.Data.Set.Defs

/-! # What a signature binds

The signed preimage is uniquely decodable, so a verifying envelope carries a
payload its key holder signed, whatever else the bytes around it say. Identity,
sequence and endpoints of a candidate then all come from one signed record.
-/

namespace Resurrect.Libp2p

open Resurrect.Core Wire Libp2pPeerRecordCodec

section Preimage

theorem continuation_byte (value : Nat) :
    (UInt8.ofNat value &&& 0x7f) ||| 0x80 = UInt8.ofNat (value % 128 + 128) := by
  have hByte : ∀ byte : Fin 256, (UInt8.ofNat byte &&& 0x7f) ||| 0x80 = UInt8.ofNat (byte % 128 + 128) := by
    decide +kernel
  have hMod : UInt8.ofNat value = UInt8.ofNat (value % 256) := by
    rw [← UInt8.toNat_inj, UInt8.toNat_ofNat', UInt8.toNat_ofNat', Nat.mod_mod]
  rw [hMod, hByte ⟨value % 256, Nat.mod_lt _ (by decide)⟩]
  have hSame : value % 256 % 128 = value % 128 := by omega
  exact congrArg (fun low => UInt8.ofNat (low + 128)) hSame

theorem appendUvarint_eq (buffer : Bytes) (value : Nat) :
    appendUvarint buffer value = buffer ++ Varint.encode value := by
  induction value using Nat.strongRecOn generalizing buffer with
  | ind value ih =>
    rw [appendUvarint]
    split
    · rename_i hLarge
      have hShift : value >>> 7 = value / 128 := Nat.shiftRight_eq_div_pow value 7
      rw [hShift, ih (value / 128) (by omega), continuation_byte, Varint.encode_large (by omega : ¬ value < 128),
        List.append_assoc, List.singleton_append]
    · rename_i hSmall
      rw [Varint.encode_small (by omega)]

theorem signingInput_eq (payloadType payload : Bytes) :
    signingInput payloadType payload = (Varint.encode peerRecordDomain.length ++ peerRecordDomain) ++
      (Varint.encode payloadType.length ++ (payloadType ++ (Varint.encode payload.length ++ payload))) := by
  simp only [signingInput, appendUvarint_eq, List.nil_append, List.append_assoc]

/-- The signed preimage determines the payload type and the payload. -/
theorem signingInput_inj {payloadType payload payloadType' payload' : Bytes}
    (h : signingInput payloadType payload = signingInput payloadType' payload') :
    payloadType = payloadType' ∧ payload = payload' := by
  rw [signingInput_eq, signingInput_eq] at h
  obtain ⟨hTypeLength, hRest⟩ := Varint.encode_append_inj (List.append_cancel_left h)
  obtain ⟨hType, hRest⟩ := List.append_inj hRest hTypeLength
  exact ⟨hType, (Varint.encode_append_inj hRest).2⟩

theorem appendUvarint_minimal (buffer : Bytes) (value : Nat) :
    ∃ output, appendUvarint buffer value = buffer ++ output ∧ Varint.Minimal output value :=
  ⟨Varint.encode value, appendUvarint_eq buffer value, Varint.minimal_encode value⟩

theorem appendUvarint_prefix_inj {a b : Nat} (h : appendUvarint [] a <+: appendUvarint [] b) : a = b := by
  rw [appendUvarint_eq, appendUvarint_eq] at h
  exact Varint.encode_prefix_inj h

/-- The preimage has one reading, because a length is written in its shortest spelling and no written
length starts another one. -/
theorem signed_preimage_unique :
    (∀ payloadType payload payloadType' payload',
      signingInput payloadType payload = signingInput payloadType' payload' →
        payloadType = payloadType' ∧ payload = payload') ∧
    (∀ buffer value, ∃ output, appendUvarint buffer value = buffer ++ output ∧ Varint.Minimal output value) ∧
    ∀ a b, appendUvarint [] a <+: appendUvarint [] b → a = b :=
  ⟨fun _ _ _ _ h => signingInput_inj h, appendUvarint_minimal, fun _ _ h => appendUvarint_prefix_inj h⟩

end Preimage

theorem Envelope.length_payload_of_decode {raw : Bytes} {envelope : Envelope}
    (h : Envelope.decode raw = .ok envelope) : envelope.payload.length ≤ raw.length := by
  refine decode_invariant (fun value => value.payload.length ≤ raw.length) h (Nat.zero_le _)
    fun value field next hFits hValue hMerge => ?_
  rw [mergeField] at hMerge
  cases hDelimited : field.value.delimited with
  | error error =>
    rw [hDelimited] at hMerge
    split at hMerge
    all_goals cases hMerge
    exact hValue
  | ok payload =>
    have hPayload := hFits payload (Value.delimited_eq_ok hDelimited)
    rw [hDelimited] at hMerge
    split at hMerge
    all_goals cases hMerge
    all_goals first | exact hPayload | exact hValue

theorem Library.RoundTrips.toBytes_injective {library : Library} (h : library.RoundTrips) :
    Function.Injective library.toBytes := by
  intro a b hBytes
  have hPeer := h.fromBytes_toBytes a
  rw [hBytes, h.fromBytes_toBytes] at hPeer
  exact (Except.ok.inj hPeer).symm

namespace Libp2pPeerRecordCodec

variable {library : Library} {self : Libp2pPeerRecordCodec}

theorem decodeAndVerify_eq_ok {raw : Bytes} {dialContext : DialContext} {candidate : PeerCandidate}
    (h : self.decodeAndVerify library raw dialContext = .ok candidate) :
    ∃ envelope publicKey payload, Opens library raw envelope publicKey payload ∧
      payload.addresses.length ≤ self.maxEndpoints ∧
      candidate.peerId = library.toBytes (library.fromPublicKey publicKey) ∧
      candidate.sequence = payload.sequence ∧ candidate.endpoints ≠ [] ∧
      candidate.endpoints = self.usableEndpoints library (library.fromPublicKey publicKey) dialContext
        payload.addresses := by
  rw [decodeAndVerify] at h
  split at h
  · cases h
  split at h
  · cases h
  split at h
  · cases h
  split at h
  · cases h
  split at h
  · cases h
  split at h
  · cases h
  dsimp only at h
  split at h
  · cases h
  split at h
  · cases h
  split at h
  · cases h
  split at h
  · cases h
  rename_i hSize _ envelope hEnvelope hType _ publicKey hKey hVerified _ payload hPayload _ payloadPeer hPeer
    hIdentity hMany hUsable
  obtain rfl := Except.ok.inj h
  obtain ⟨hNonempty, hMax⟩ := not_or.mp hSize
  have hTypeEq := not_not.mp hType
  rw [← not_not.mp hIdentity] at hPeer
  refine ⟨envelope, publicKey, payload, ⟨mt List.isEmpty_iff.mpr hNonempty, not_lt.mp hMax, hEnvelope, hTypeEq, hKey,
    ?_, hPayload, hPeer⟩, not_lt.mp hMany, rfl, rfl, mt List.isEmpty_iff.mpr hUsable, rfl⟩
  rw [← hTypeEq]
  simpa using hVerified

end Libp2pPeerRecordCodec

/-- No endpoint substitution: where signatures under the holder's key verify only for records the holder
signed, a candidate with the holder's peer id has the sequence and the endpoints of one such record. -/
theorem candidate_of_signed_record {library : Library} (hRoundTrips : library.RoundTrips)
    (hInjective : Function.Injective library.fromPublicKey) (holder : library.Keypair)
    (signed : Set (UInt64 × List library.Multiaddr))
    (hVerify : ∀ message signature, library.verify (library.publicKey holder) message signature = true →
      ∃ record ∈ signed, message = signingInput peerRecordPayloadType
        (recordPayload library holder record.1 record.2).encodeToVec)
    (codec : Libp2pPeerRecordCodec) {raw : Bytes} {dialContext : DialContext} {candidate : PeerCandidate}
    (hDecoded : codec.decodeAndVerify library raw dialContext = .ok candidate)
    (hPeer : candidate.peerId = library.toBytes (library.fromPublicKey (library.publicKey holder))) :
    ∃ record ∈ signed, candidate.sequence = record.1 ∧
      candidate.endpoints = codec.acceptedEndpoints library (library.fromPublicKey (library.publicKey holder))
        dialContext record.2 ∧
      1 ≤ candidate.endpoints.length ∧ candidate.endpoints.length ≤ codec.maxEndpoints := by
  obtain ⟨envelope, publicKey, payload, hOpens, hMany, hPeerId, hSequence, hSome, hEndpoints⟩ :=
    decodeAndVerify_eq_ok hDecoded
  have hHolder : publicKey = library.publicKey holder :=
    hInjective (hRoundTrips.toBytes_injective (hPeerId.symm.trans hPeer))
  subst hHolder
  obtain ⟨⟨sequence, addresses⟩, hMem, hMessage⟩ := hVerify _ _ hOpens.verified
  obtain ⟨-, hPayload⟩ := signingInput_inj hMessage
  have hLength : (recordPayload library holder sequence addresses).encodeToVec.length < 2 ^ 64 := by
    rw [← hPayload]
    have hSize := (Envelope.length_payload_of_decode hOpens.decode_eq).trans hOpens.size_le
    exact hSize.trans_lt (by decide)
  have hRecord := hOpens.payload_eq
  rw [hPayload, PeerRecordMessage.decode_encodeToVec _ hLength] at hRecord
  obtain rfl := Except.ok.inj hRecord
  have hAccepted := hEndpoints.trans (codec.usableEndpoints_toVec hRoundTrips _ dialContext addresses)
  refine ⟨⟨sequence, addresses⟩, hMem, hSequence, hAccepted, List.length_pos_iff.mpr hSome, ?_⟩
  calc
    candidate.endpoints.length ≤ addresses.length := by
      rw [hAccepted]
      exact codec.length_acceptedEndpoints_le _ _ _
    _ = (recordPayload library holder sequence addresses).addresses.length := (List.length_map _).symm
    _ ≤ codec.maxEndpoints := hMany

def vectorRecords : Set (UInt64 × List VectorAddress) := {(42, [.browser]), (43, [.native])}

/-- The browser vector with the payload of the other one, and an unknown field, put before it. -/
def reassembledRecord : Bytes :=
  encodeBytes 3 (PeerRecordMessage.mk vectorPeerId 43 [⟨VectorAddress.native.toVec⟩]).encodeToVec ++
    encodeUint64 15 7 ++ browserRecord

theorem candidate_of_signed_record_reassembled : ∃ record ∈ vectorRecords, 42 = record.1 ∧
    [⟨"/dns4/seed.example/tcp/443/wss"⟩] =
      default.acceptedEndpoints vectorLibrary () .nativeServer record.2 := by
  have hVerify : ∀ message signature, vectorLibrary.verify () message signature = true →
      ∃ record ∈ vectorRecords, message = signingInput peerRecordPayloadType
        (recordPayload vectorLibrary () record.1 record.2).encodeToVec := by
    intro message signature hVerified
    obtain ⟨rfl, -⟩ | ⟨rfl, -⟩ := of_decide_eq_true hVerified
    · exact ⟨(42, [.browser]), .inl rfl, rfl⟩
    · exact ⟨(43, [.native]), .inr rfl, rfl⟩
  have hDecoded : default.decodeAndVerify vectorLibrary reassembledRecord .nativeServer = .ok {
      recordType := recordTypeLibp2p
      peerId := vectorPeerId
      sequence := 42
      endpoints := [⟨"/dns4/seed.example/tcp/443/wss"⟩]
      rawSignedRecord := reassembledRecord
      expiresAt := 0
      source := .resurrectRegistry
      announcementBlock := none
      announcementLogIndex := none } := by
    decide +kernel
  obtain ⟨record, hMem, hSequence, hEndpoints, -⟩ := candidate_of_signed_record vectorLibrary_lawful.toRoundTrips
    (fun _ _ _ => rfl) () vectorRecords hVerify default hDecoded rfl
  exact ⟨record, hMem, hSequence, hEndpoints⟩

end Resurrect.Libp2p
