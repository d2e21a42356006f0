import Resurrect.Core.PeerRecord
import Mathlib.Order.Nat

/-! # The rendezvous beacon

`ResurrectBeaconV1.announce`: what it refuses, and the event it emits. Solidity
checks the addition of the expiry; the conversion of the block timestamp wraps.
-/

namespace Resurrect.Ethereum

open Resurrect.Core

namespace ResurrectBeaconV1

def version : UInt32 := 1
def maxTtl : UInt32 := 90 * 24 * 60 * 60
def maxRecordBytes : UInt32 := 4096

/-- Panic code of a checked arithmetic overflow. -/
def arithmeticPanic : Nat := 0x11

inductive Revert where
  | invalidTTL (supplied : UInt32)
  | recordTooLarge (supplied : Nat)
  | panic (code : Nat)
  deriving DecidableEq, Repr

structure PeerAnnounced where
  «namespace» : Namespace
  recordType : UInt32
  validUntil : UInt64
  peerRecord : Bytes
  deriving DecidableEq, Repr

def announce (blockTimestamp : U256) («namespace» : Namespace) (recordType ttl : UInt32)
    (peerRecord : Bytes) : Except Revert PeerAnnounced :=
  if ttl = 0 ∨ maxTtl < ttl then .error (.invalidTTL ttl)
  else if peerRecord.length = 0 ∨ maxRecordBytes.toNat < peerRecord.length then
    .error (.recordTooLarge peerRecord.length)
  else if 2 ^ 64 ≤ (UInt64.ofNat blockTimestamp.val).toNat + ttl.toNat then
    .error (.panic arithmeticPanic)
  else .ok ⟨«namespace», recordType, UInt64.ofNat blockTimestamp.val + ttl.toUInt64, peerRecord⟩

/-- The bounds an emitted event has passed. -/
structure Emits (timestamp : UInt64) (ttl : UInt32) (peerRecord : Bytes) (validUntil : UInt64) : Prop where
  ttl_pos : 0 < ttl.toNat
  ttl_le : ttl.toNat ≤ maxTtl.toNat
  record_pos : 0 < peerRecord.length
  record_le : peerRecord.length ≤ maxRecordBytes.toNat
  validUntil_eq : validUntil.toNat = timestamp.toNat + ttl.toNat

theorem announce_eq_ok {blockTimestamp : U256} {ns : Namespace} {recordType ttl : UInt32}
    {peerRecord : Bytes} {event : PeerAnnounced} :
    announce blockTimestamp ns recordType ttl peerRecord = .ok event ↔
      Emits (UInt64.ofNat blockTimestamp.val) ttl peerRecord event.validUntil ∧
        event = ⟨ns, recordType, event.validUntil, peerRecord⟩ := by
  rw [announce]
  constructor
  · intro h
    split at h
    · cases h
    split at h
    · cases h
    split at h
    · cases h
    rename_i hTtl hSize hSum
    obtain ⟨hZero, hMax⟩ := not_or.mp hTtl
    obtain ⟨hEmpty, hLarge⟩ := not_or.mp hSize
    cases h
    refine ⟨⟨?_, ?_, Nat.pos_of_ne_zero hEmpty, not_lt.mp hLarge, ?_⟩, rfl⟩
    · exact Nat.pos_of_ne_zero fun hTtl => hZero (UInt32.toNat_inj.mp hTtl)
    · exact UInt32.le_iff_toNat_le.mp (UInt32.not_lt.mp hMax)
    · rw [UInt64.toNat_add, UInt32.toNat_toUInt64, Nat.mod_eq_of_lt (not_le.mp hSum)]
  · rintro ⟨h, hEvent⟩
    have hTtl : ¬ (ttl = 0 ∨ maxTtl < ttl) := by
      rintro (rfl | hMax)
      · exact absurd h.ttl_pos (by decide)
      · exact absurd h.ttl_le (not_le.mpr (UInt32.lt_iff_toNat_lt.mp hMax))
    have hSize : ¬ (peerRecord.length = 0 ∨ maxRecordBytes.toNat < peerRecord.length) :=
      not_or.mpr ⟨h.record_pos.ne', not_lt.mpr h.record_le⟩
    have hSum := h.validUntil_eq
    have hBound := event.validUntil.toNat_lt
    rw [if_neg hTtl, if_neg hSize, if_neg (by omega)]
    have hValid : UInt64.ofNat blockTimestamp.val + ttl.toUInt64 = event.validUntil := by
      rw [← UInt64.toNat_inj, UInt64.toNat_add, UInt32.toNat_toUInt64, Nat.mod_eq_of_lt (by omega), hSum]
    rw [hValid]
    exact congrArg _ hEvent.symm

end ResurrectBeaconV1

end Resurrect.Ethereum
