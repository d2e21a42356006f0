import Resurrect.Foundation.Varint
import Mathlib.Data.Fin.Basic

/-! # Peer records and candidates

The protocol-independent values of `resurrect-core`: hashes, namespaces, verified
peer candidates and the codec interface that produces them.
-/

namespace Resurrect.Core

/-- A 32-byte word read big-endian, so that numeric order is the order of the bytes. -/
abbrev B256 := Fin (2 ^ 256)

abbrev U256 := Fin (2 ^ 256)

abbrev Address := Fin (2 ^ 160)

instance neZeroWord : NeZero (2 ^ 256) := ⟨by decide⟩

instance neZeroAddress : NeZero (2 ^ 160) := ⟨by decide⟩

def toBytes32 (word : B256) : Bytes :=
  (List.range 32).map fun i => UInt8.ofNat (word.val >>> (8 * (31 - i)))

def toBeBytes (value : UInt32) : Bytes :=
  [(value >>> 24).toUInt8, (value >>> 16).toUInt8, (value >>> 8).toUInt8, value.toUInt8]

structure Namespace where
  bytes : B256
  deriving DecidableEq, Repr

def recordTypeEnr : UInt32 := 1
def recordTypeLibp2p : UInt32 := 2
def maxTtlSeconds : UInt32 := 90 * 24 * 60 * 60
def resurrectVersion : UInt32 := 1
def defaultMaxRecordBytes : Nat := 4096
def defaultMaxEndpointsPerRecord : Nat := 16
def defaultMaxActiveCandidates : Nat := 256

inductive DialContext where
  | nativeServer
  | browser
  | mobile
  | restrictedEgress
  deriving DecidableEq, Repr

structure Endpoint where
  address : String
  deriving DecidableEq, Repr

inductive DiscoverySourceKind where
  | localCache
  | native
  | resurrectRegistry
  deriving DecidableEq, Repr

structure PeerCandidate where
  recordType : UInt32
  peerId : Bytes
  sequence : UInt64
  endpoints : List Endpoint
  rawSignedRecord : Bytes
  expiresAt : UInt64
  source : DiscoverySourceKind
  announcementBlock : Option UInt64
  announcementLogIndex : Option UInt64
  deriving DecidableEq, Repr

/-- A stable composite identity key that avoids cross-codec collisions. -/
def PeerCandidate.identityKey (candidate : PeerCandidate) : Bytes :=
  toBeBytes candidate.recordType ++ candidate.peerId

inductive PeerRecordError where
  | invalidSize (size : Nat)
  | malformed (message : String)
  | invalidSignature
  | identityMismatch
  | noUsableEndpoint (context : DialContext)
  | tooManyEndpoints (maximum : Nat)
  deriving DecidableEq, Repr

structure PeerRecordCodec where
  recordType : UInt32
  decodeAndVerify : Bytes → DialContext → Except PeerRecordError PeerCandidate

theorem toBeBytes_injective {a b : UInt32} (h : toBeBytes a = toBeBytes b) : a = b := by
  simp only [toBeBytes, List.cons.injEq, and_true, ← UInt8.toNat_inj, UInt32.toNat_toUInt8,
    UInt32.toNat_shiftRight, Nat.shiftRight_eq_div_pow, UInt32.reduceToNat, Nat.reduceMod,
    Nat.reducePow] at h
  obtain ⟨h3, h2, h1, h0⟩ := h
  have ha := a.toNat_lt
  have hb := b.toNat_lt
  rw [← UInt32.toNat_inj]
  omega

theorem toBytes32_injective {a b : B256} (h : toBytes32 a = toBytes32 b) : a = b := by
  apply Fin.ext
  apply Nat.eq_of_testBit_eq
  intro bit
  by_cases hBit : bit < 256
  · have hByte := (List.map_inj_left.mp h) (31 - bit / 8) (List.mem_range.mpr (by omega))
    have hShift : 8 * (31 - (31 - bit / 8)) = 8 * (bit / 8) := by omega
    rw [hShift, ← UInt8.toNat_inj, UInt8.toNat_ofNat', UInt8.toNat_ofNat'] at hByte
    have hPlace : 8 * (bit / 8) + bit % 8 = bit := Nat.div_add_mod bit 8
    have hBits := congrArg (fun n => n.testBit (bit % 8)) hByte
    simpa only [Nat.testBit_mod_two_pow, Nat.testBit_shiftRight, hPlace, Nat.mod_lt bit (Nat.succ_pos 7), decide_true,
      Bool.true_and] using hBits
  · have hLarge : 2 ^ 256 ≤ 2 ^ bit := Nat.pow_le_pow_right (Nat.succ_pos 1) (not_lt.mp hBit)
    rw [Nat.testBit_lt_two_pow (a.isLt.trans_le hLarge), Nat.testBit_lt_two_pow (b.isLt.trans_le hLarge)]
theorem identityKey_inj {a b : PeerCandidate} :
    a.identityKey = b.identityKey ↔ a.recordType = b.recordType ∧ a.peerId = b.peerId := by
  constructor
  · intro h
    obtain ⟨hType, hPeer⟩ := List.append_inj h rfl
    exact ⟨toBeBytes_injective hType, hPeer⟩
  · rintro ⟨hType, hPeer⟩
    rw [PeerCandidate.identityKey, PeerCandidate.identityKey, hType, hPeer]

end Resurrect.Core
