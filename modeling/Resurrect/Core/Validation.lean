import Resurrect.Core.PeerRecord
import Mathlib.Data.List.AList

/-! # Announcement validation

The envelope checks and the codec call that turn a registry log into a
candidate, in the order in which they are made.
-/

namespace Resurrect.Core

structure Announcement where
  «namespace» : Namespace
  recordType : UInt32
  validUntil : UInt64
  peerRecord : Bytes
  blockNumber : UInt64
  logIndex : UInt64
  blockHash : Option B256
  deriving DecidableEq, Repr

structure AnnouncementPolicy where
  expectedNamespace : Namespace
  acceptedRecordTypes : List UInt32
  chainTime : UInt64
  maxRecordBytes : Nat
  maxEndpoints : Nat
  dialContext : DialContext
  deriving DecidableEq, Repr

inductive AnnouncementError where
  | wrongNamespace
  | unsupportedRecordType (recordType : UInt32)
  | expired (validUntil chainTime : UInt64)
  | invalidRecordSize (size : Nat)
  | codecTypeMismatch (announced decoded : UInt32)
  | peerRecord (error : PeerRecordError)
  deriving DecidableEq, Repr

/-- Runtime registry of explicitly accepted codecs, each under its own identifier. -/
structure CodecRegistry where
  codecs : AList fun _ : UInt32 => PeerRecordCodec
  keyed : ∀ recordType, ∀ codec ∈ codecs.lookup recordType, codec.recordType = recordType

namespace CodecRegistry

def new : CodecRegistry := ⟨∅, by simp⟩

def register (self : CodecRegistry) (codec : PeerRecordCodec) : CodecRegistry where
  codecs := self.codecs.insert codec.recordType codec
  keyed := by
    intro recordType other hOther
    by_cases hType : recordType = codec.recordType
    · subst hType
      rw [AList.lookup_insert] at hOther
      obtain rfl := Option.some.inj hOther
      rfl
    · rw [AList.lookup_insert_ne hType] at hOther
      exact self.keyed recordType other hOther

def get (self : CodecRegistry) (recordType : UInt32) : Option PeerRecordCodec :=
  self.codecs.lookup recordType

@[simp] theorem get_register (self : CodecRegistry) (codec : PeerRecordCodec) :
    (self.register codec).get codec.recordType = some codec := AList.lookup_insert _

def validateAnnouncement (self : CodecRegistry) (announcement : Announcement)
    (policy : AnnouncementPolicy) : Except AnnouncementError PeerCandidate :=
  if announcement.namespace ≠ policy.expectedNamespace then .error .wrongNamespace
  else if announcement.recordType ∉ policy.acceptedRecordTypes then
    .error (.unsupportedRecordType announcement.recordType)
  else if announcement.validUntil ≤ policy.chainTime then
    .error (.expired announcement.validUntil policy.chainTime)
  else if announcement.peerRecord = [] ∨ policy.maxRecordBytes < announcement.peerRecord.length then
    .error (.invalidRecordSize announcement.peerRecord.length)
  else match self.get announcement.recordType with
    | none => .error (.unsupportedRecordType announcement.recordType)
    | some codec =>
      match codec.decodeAndVerify announcement.peerRecord policy.dialContext with
      | .error error => .error (.peerRecord error)
      | .ok candidate =>
        if candidate.recordType ≠ announcement.recordType then
          .error (.codecTypeMismatch announcement.recordType candidate.recordType)
        else if policy.maxEndpoints < candidate.endpoints.length then
          .error (.peerRecord (.tooManyEndpoints policy.maxEndpoints))
        else .ok { candidate with
          expiresAt := announcement.validUntil
          source := .resurrectRegistry
          announcementBlock := some announcement.blockNumber
          announcementLogIndex := some announcement.logIndex }

end CodecRegistry

def PeerCandidate.announcedBy (candidate : PeerCandidate) (announcement : Announcement) :
    PeerCandidate :=
  { candidate with
    expiresAt := announcement.validUntil
    source := .resurrectRegistry
    announcementBlock := some announcement.blockNumber
    announcementLogIndex := some announcement.logIndex }

@[simp] theorem identityKey_announcedBy (candidate : PeerCandidate) (announcement : Announcement) :
    (candidate.announcedBy announcement).identityKey = candidate.identityKey := rfl

/-- Every check an accepted announcement has passed. -/
structure Accepted (codecs : CodecRegistry) (announcement : Announcement) (policy : AnnouncementPolicy)
    (codec : PeerRecordCodec) (decoded : PeerCandidate) : Prop where
  namespace_eq : announcement.namespace = policy.expectedNamespace
  recordType_mem : announcement.recordType ∈ policy.acceptedRecordTypes
  live : policy.chainTime < announcement.validUntil
  nonempty : announcement.peerRecord ≠ []
  size_le : announcement.peerRecord.length ≤ policy.maxRecordBytes
  codec_eq : codecs.get announcement.recordType = some codec
  decode_eq : codec.decodeAndVerify announcement.peerRecord policy.dialContext = .ok decoded
  type_eq : decoded.recordType = announcement.recordType
  endpoints_le : decoded.endpoints.length ≤ policy.maxEndpoints

theorem validateAnnouncement_eq_ok {codecs : CodecRegistry} {announcement : Announcement}
    {policy : AnnouncementPolicy} {candidate : PeerCandidate} :
    codecs.validateAnnouncement announcement policy = .ok candidate ↔
      ∃ codec decoded, Accepted codecs announcement policy codec decoded ∧
        candidate = decoded.announcedBy announcement := by
  rw [CodecRegistry.validateAnnouncement]
  constructor
  · intro h
    split at h
    · cases h
    split at h
    · cases h
    split at h
    · cases h
    split at h
    · cases h
    split at h
    · cases h
    split at h
    · cases h
    split at h
    · cases h
    split at h
    · cases h
    rename_i hNamespace hType hLive hSize _ codec hCodec _ decoded hDecode hMismatch hEndpoints
    obtain ⟨hNonempty, hMax⟩ := not_or.mp hSize
    exact ⟨codec, decoded, ⟨not_not.mp hNamespace, not_not.mp hType, UInt64.not_le.mp hLive, hNonempty,
      not_lt.mp hMax, hCodec, hDecode, not_not.mp hMismatch, not_lt.mp hEndpoints⟩,
      (Except.ok.inj h).symm⟩
  · rintro ⟨codec, decoded, h, rfl⟩
    have hSize : ¬ (announcement.peerRecord = [] ∨ policy.maxRecordBytes < announcement.peerRecord.length) :=
      not_or.mpr ⟨h.nonempty, not_lt.mpr h.size_le⟩
    rw [if_neg (not_not.mpr h.namespace_eq), if_neg (not_not.mpr h.recordType_mem),
      if_neg (UInt64.not_le.mpr h.live), if_neg hSize, h.codec_eq]
    dsimp only
    rw [h.decode_eq]
    dsimp only
    rw [if_neg (not_not.mpr h.type_eq), if_neg (not_lt.mpr h.endpoints_le)]
    rfl

end Resurrect.Core
