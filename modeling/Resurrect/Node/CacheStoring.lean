import Resurrect.Node.CacheLoading

/-! # What the cache keeps

A batch is one transaction: it is written candidate by candidate, or not at all
if one number in it has no place in a signed column. What a row holds after any
history of batches that fit is the newest candidate stored under its key.
-/

namespace Resurrect.Node

open Resurrect.Core Bootstrap BoundedSample AssocMap Upsert Interaction

/-- The candidates whose numbers are signed 64-bit integers; a missing position counts as 0. -/
structure Fits (candidate : PeerCandidate) : Prop where
  sequence : candidate.sequence.toNat < 9223372036854775808
  expiresAt : candidate.expiresAt.toNat < 9223372036854775808
  announcementBlock : (candidate.announcementBlock.getD 0).toNat < 9223372036854775808
  announcementLogIndex : (candidate.announcementLogIndex.getD 0).toNat < 9223372036854775808

instance decidableFits (candidate : PeerCandidate) : Decidable (Fits candidate) :=
  decidable_of_iff (candidate.sequence.toNat < 9223372036854775808 ∧ candidate.expiresAt.toNat < 9223372036854775808 ∧
    (candidate.announcementBlock.getD 0).toNat < 9223372036854775808 ∧
    (candidate.announcementLogIndex.getD 0).toNat < 9223372036854775808)
    ⟨fun h => ⟨h.1, h.2.1, h.2.2.1, h.2.2.2⟩, fun h => ⟨h.1, h.2, h.3, h.4⟩⟩

/-- The columns that a candidate is written to. -/
def columns (candidate : PeerCandidate) : PeerRow where
  sequence := .integer candidate.sequence.toInt64
  rawSignedRecord := .blob candidate.rawSignedRecord
  expiresAt := .integer candidate.expiresAt.toInt64
  announcementBlock := candidate.announcementBlock.map fun block => .integer block.toInt64
  announcementLogIndex := candidate.announcementLogIndex.map fun logIndex => .integer logIndex.toInt64

theorem toI64_eq_ok {value : UInt64} {field : String} {result : Int64} :
    PeerCache.toI64 value field = .ok result ↔ value.toNat < 9223372036854775808 ∧ result = value.toInt64 := by
  rw [PeerCache.toI64]
  split <;> simp [*, eq_comm]

theorem optionalI64_eq_ok {value : Option UInt64} {field : String} {result : Option Int64} :
    PeerCache.optionalI64 value field = .ok result ↔
      (value.getD 0).toNat < 9223372036854775808 ∧ result = value.map UInt64.toInt64 := by
  cases value with
  | none => simp [PeerCache.optionalI64, eq_comm]
  | some value =>
    rw [PeerCache.optionalI64, PeerCache.toI64]
    split <;> simp [*, Except.map, eq_comm]

theorem write_eq_ok {candidate : PeerCandidate} {row : PeerRow} :
    PeerRow.write candidate = .ok row ↔ Fits candidate ∧ row = columns candidate := by
  simp only [PeerRow.write, bind_eq_ok, toI64_eq_ok, optionalI64_eq_ok]
  constructor
  · rintro ⟨_, ⟨hSequence, rfl⟩, _, ⟨hExpiry, rfl⟩, _, ⟨hBlock, rfl⟩, _, ⟨hLog, rfl⟩, hRow⟩
    refine ⟨⟨hSequence, hExpiry, hBlock, hLog⟩, ?_⟩
    rw [← Except.ok.inj hRow, columns, Option.map_map, Option.map_map]
    rfl
  · rintro ⟨⟨hSequence, hExpiry, hBlock, hLog⟩, rfl⟩
    refine ⟨_, ⟨hSequence, rfl⟩, _, ⟨hExpiry, rfl⟩, _, ⟨hBlock, rfl⟩, _, ⟨hLog, rfl⟩, ?_⟩
    rw [columns, Option.map_map, Option.map_map]
    rfl

section Ordered

variable {σ : Type} [LinearOrder σ] (order : SqlOrder σ)

/-- What an upsert does with a candidate whose numbers fit. -/
def replaceRow (held : Option PeerRow) (candidate : PeerCandidate) : PeerRow :=
  order.conflict held (columns candidate)

theorem execute_eq_ok {ns : Namespace} {table stored : VerifiedPeers} {candidate : PeerCandidate} :
    VerifiedPeers.execute order ns table candidate = .ok stored ↔
      Fits candidate ∧ stored = upsert (PeerKey.row ns) (replaceRow order) table candidate := by
  simp only [VerifiedPeers.execute, bind_eq_ok, write_eq_ok]
  constructor
  · rintro ⟨_, ⟨hFits, rfl⟩, hStored⟩
    exact ⟨hFits, (Except.ok.inj hStored).symm⟩
  · rintro ⟨hFits, rfl⟩
    exact ⟨_, ⟨hFits, rfl⟩, rfl⟩

theorem foldlM_execute_eq_ok {ns : Namespace} {table stored : VerifiedPeers} {candidates : List PeerCandidate} :
    candidates.foldlM (VerifiedPeers.execute order ns) table = .ok stored ↔
      (∀ candidate ∈ candidates, Fits candidate) ∧
        stored = upsertAll (PeerKey.row ns) (replaceRow order) table candidates := by
  induction candidates generalizing table with
  | nil =>
    rw [List.foldlM_nil, upsertAll, List.foldl_nil]
    exact ⟨fun h => ⟨List.forall_mem_nil _, (Except.ok.inj h).symm⟩, fun h => congrArg _ h.2.symm⟩
  | cons candidate candidates ih =>
    simp only [List.foldlM_cons, bind_eq_ok, execute_eq_ok, ih, List.forall_mem_cons]
    constructor
    · rintro ⟨_, ⟨hFits, rfl⟩, hRest, rfl⟩
      exact ⟨⟨hFits, hRest⟩, rfl⟩
    · rintro ⟨⟨hFits, hRest⟩, rfl⟩
      exact ⟨_, ⟨hFits, rfl⟩, hRest, rfl⟩

theorem store_of_fits {ns : Namespace} (table : VerifiedPeers) {candidates : List PeerCandidate}
    (hFits : ∀ candidate ∈ candidates, Fits candidate) : table.store order ns candidates =
      (.ok (), upsertAll (PeerKey.row ns) (replaceRow order) table candidates) := by
  rw [VerifiedPeers.store, (foldlM_execute_eq_ok order).mpr ⟨hFits, rfl⟩]

/-- A batch with one number out of range leaves the table as it was. -/
theorem store_of_not_fits {ns : Namespace} (table : VerifiedPeers) {candidates : List PeerCandidate}
    (hFits : ¬ ∀ candidate ∈ candidates, Fits candidate) : (table.store order ns candidates).2 = table := by
  rw [VerifiedPeers.store]
  cases hRun : candidates.foldlM (VerifiedPeers.execute order ns) table with
  | error error => rfl
  | ok stored => exact absurd ((foldlM_execute_eq_ok order).mp hRun).1 hFits

/-- What the guard compares. -/
def rowScore (row : PeerRow) : σ ×ₗ σ := toLex (order.rank row.sequence, order.rank row.block)

theorem supersedes_iff {excluded stored : PeerRow} :
    order.Supersedes excluded stored ↔ rowScore order stored ≤ rowScore order excluded := by
  rw [SqlOrder.Supersedes, rowScore, rowScore, Prod.Lex.le_iff, eq_comm]
  rfl

theorem replaceRow_eq_guarded : replaceRow order =
    guarded columns (fun candidate => rowScore order (columns candidate)) (rowScore order) := by
  funext held candidate
  cases held with
  | none => rfl
  | some stored =>
    rw [replaceRow, SqlOrder.conflict, guarded]
    simp only [supersedes_iff]

/-- The order in which records of one peer replace each other in the cache. -/
def stamp (candidate : PeerCandidate) : ℕ ×ₗ ℕ :=
  toLex (candidate.sequence.toNat, (candidate.announcementBlock.getD 0).toNat)

theorem toInt_toInt64 {value : UInt64} (h : value.toNat < 9223372036854775808) :
    value.toInt64.toInt = value.toNat := by
  change value.toBitVec.toInt = value.toBitVec.toNat
  exact BitVec.toInt_eq_toNat_of_lt (by rw [UInt64.toNat_toBitVec]; omega)

theorem rank_le_iff {a b : UInt64} (ha : a.toNat < 9223372036854775808) (hb : b.toNat < 9223372036854775808) :
    order.rank (.integer a.toInt64) ≤ order.rank (.integer b.toInt64) ↔ a.toNat ≤ b.toNat := by
  rw [order.rank_integer, Int64.le_iff_toInt_le, toInt_toInt64 ha, toInt_toInt64 hb, Int.ofNat_le]

theorem block_columns (candidate : PeerCandidate) :
    (columns candidate).block = .integer (candidate.announcementBlock.getD 0).toInt64 := by
  rw [PeerRow.block, columns]
  cases candidate.announcementBlock <;> rfl

theorem rowScore_le_iff {a b : PeerCandidate} (ha : Fits a) (hb : Fits b) :
    rowScore order (columns a) ≤ rowScore order (columns b) ↔ stamp a ≤ stamp b := by
  have hSequence := rank_le_iff order ha.sequence hb.sequence
  have hSequence' := rank_le_iff order hb.sequence ha.sequence
  have hBlock := rank_le_iff order ha.announcementBlock hb.announcementBlock
  rw [rowScore, rowScore, block_columns, block_columns, stamp, stamp, Prod.Lex.toLex_le_toLex, Prod.Lex.toLex_le_toLex,
    hBlock]
  change order.rank (.integer a.sequence.toInt64) < order.rank (.integer b.sequence.toInt64) ∨
    order.rank (.integer a.sequence.toInt64) = order.rank (.integer b.sequence.toInt64) ∧ _ ↔ _
  rw [lt_iff_le_not_ge, lt_iff_le_not_ge, le_antisymm_iff, le_antisymm_iff, hSequence, hSequence']

/-- What a row holds after candidates that fit: the newest of its own, where the row gives way to it. -/
theorem replaceAll_replaceRow {candidates : List PeerCandidate} (hFits : ∀ candidate ∈ candidates, Fits candidate)
    (held : Option PeerRow) : replaceAll (replaceRow order) held candidates =
      match maxByKey stamp candidates with
      | none => held
      | some candidate => some (replaceRow order held candidate) := by
  have hSame : maxByKey (fun candidate => rowScore order (columns candidate)) candidates = maxByKey stamp candidates :=
    maxByKey_congr fun a ha b hb => rowScore_le_iff order (hFits a ha) (hFits b hb)
  rw [replaceRow_eq_guarded, replaceAll_guarded (fun _ => rfl), hSame]
  cases maxByKey stamp candidates <;> rfl

/-- The table with one row at most. -/
def only (table : VerifiedPeers) (key : PeerKey) : VerifiedPeers := keep table fun other _ => decide (other = key)

theorem lookup_only (table : VerifiedPeers) (key : PeerKey) : (only table key).lookup key = table.lookup key := by
  ext row
  simp [only, lookup_keep_eq_some]

/-- Every row ends as if its previous state and its own candidates were all there is. -/
def Isolated (table : VerifiedPeers) (ns : Namespace) (batch : List PeerCandidate) : Prop :=
  ∀ key, (table.store order ns batch).2.lookup key =
    ((only table key).store order ns (own (PeerKey.row ns) batch key)).2.lookup key

theorem lookup_store_own {table : VerifiedPeers} {ns : Namespace} {batch : List PeerCandidate} {key : PeerKey}
    (hFits : ∀ candidate ∈ own (PeerKey.row ns) batch key, Fits candidate) :
    ((only table key).store order ns (own (PeerKey.row ns) batch key)).2.lookup key =
      replaceAll (replaceRow order) (table.lookup key) (own (PeerKey.row ns) batch key) := by
  rw [store_of_fits order _ hFits, lookup_upsertAll, lookup_only, own_own]

/-- When candidates that fit leave a row as it was. -/
theorem replaceAll_eq_held {candidates : List PeerCandidate} (hFits : ∀ candidate ∈ candidates, Fits candidate)
    {held : Option PeerRow} : replaceAll (replaceRow order) held candidates = held ↔
      ∀ newest, IsNewest stamp candidates newest →
        ∃ row, held = some row ∧ (order.Supersedes (columns newest) row → row = columns newest) := by
  rw [replaceAll_replaceRow order hFits]
  simp only [← maxByKey_eq_some]
  cases maxByKey stamp candidates with
  | none => exact iff_of_true rfl fun newest h => by cases h
  | some newest =>
    simp only [Option.some.injEq, forall_eq']
    cases held with
    | none => exact iff_of_false (fun h => by cases h) fun ⟨row, h, _⟩ => by cases h
    | some row =>
      simp only [Option.some.injEq, exists_eq_left', replaceRow, SqlOrder.conflict]
      split <;> simp [*, eq_comm]

/-- The batch isolation theorem: one number out of range loses what all other candidates bring. -/
theorem isolated_iff {table : VerifiedPeers} {ns : Namespace} {batch : List PeerCandidate} :
    Isolated order table ns batch ↔ (∀ candidate ∈ batch, Fits candidate) ∨
      ∀ key, (∀ candidate ∈ own (PeerKey.row ns) batch key, Fits candidate) →
        ∀ newest, IsNewest stamp (own (PeerKey.row ns) batch key) newest →
          ∃ row, table.lookup key = some row ∧ (order.Supersedes (columns newest) row → row = columns newest) := by
  by_cases hFits : ∀ candidate ∈ batch, Fits candidate
  · refine iff_of_true (fun key => ?_) (.inl hFits)
    have hOwn : ∀ candidate ∈ own (PeerKey.row ns) batch key, Fits candidate :=
      fun candidate hMem => hFits candidate ((mem_own _).mp hMem).1
    rw [lookup_store_own order hOwn, store_of_fits order table hFits, lookup_upsertAll]
  · rw [or_iff_right hFits, Isolated, store_of_not_fits order table hFits]
    refine forall_congr' fun key => ?_
    by_cases hOwn : ∀ candidate ∈ own (PeerKey.row ns) batch key, Fits candidate
    · rw [lookup_store_own order hOwn, forall_prop_of_true hOwn, ← replaceAll_eq_held order hOwn, eq_comm]
    · rw [store_of_not_fits order _ hOwn, lookup_only]
      exact iff_of_true rfl fun h => absurd h hOwn

end Ordered

/-- A codec whose sequences are large: the second byte is their most significant one. -/
def topByteCodec : PeerRecordCodec where
  recordType := recordTypeLibp2p
  decodeAndVerify
    | [peer, top], _ => .ok {
        recordType := recordTypeLibp2p
        peerId := [peer]
        sequence := top.toUInt64 <<< 56
        endpoints := [⟨"/ip4/8.8.8.8/tcp/4001"⟩]
        rawSignedRecord := [peer, top]
        expiresAt := 0
        source := .resurrectRegistry
        announcementBlock := none
        announcementLogIndex := none }
    | _, _ => .error .invalidSignature

def topByteCache : SqlitePeerCache :=
  .opened (CodecRegistry.new.register topByteCodec) [recordTypeLibp2p] .nativeServer 16

def topByteCandidate (peer top : UInt8) : PeerCandidate where
  recordType := recordTypeLibp2p
  peerId := [peer]
  sequence := top.toUInt64 <<< 56
  endpoints := [⟨"/ip4/8.8.8.8/tcp/4001"⟩]
  rawSignedRecord := [peer, top]
  expiresAt := 200
  source := .resurrectRegistry
  announcementBlock := some 12
  announcementLogIndex := some 0

def topByteAnnouncement (peer top : UInt8) : Announcement where
  «namespace» := sevensNamespace
  recordType := recordTypeLibp2p
  validUntil := 200
  peerRecord := [peer, top]
  blockNumber := 12
  logIndex := 0
  blockHash := none

/-- A validated candidate of sequence `200 * 2 ^ 56` keeps another one out of the cache. -/
theorem overflowingSequence_blocks :
    topByteCache.codecs.validateAnnouncement (topByteAnnouncement 1 8) (topByteCache.policy sevensNamespace 100) =
      .ok (topByteCandidate 1 8) ∧
    topByteCache.codecs.validateAnnouncement (topByteAnnouncement 2 200) (topByteCache.policy sevensNamespace 100) =
      .ok (topByteCandidate 2 200) ∧
    ((∅ : VerifiedPeers).store storageOrder sevensNamespace [topByteCandidate 1 8, topByteCandidate 2 200]).1 =
      .error (.numericOverflow "sequence") ∧
    ((∅ : VerifiedPeers).store storageOrder sevensNamespace [topByteCandidate 1 8]).2.lookup (sevensKey 2 1) =
      some (columns (topByteCandidate 1 8)) ∧
    ¬ Isolated storageOrder ∅ sevensNamespace [topByteCandidate 1 8, topByteCandidate 2 200] := by
  refine ⟨by decide, by decide, by decide, by decide, fun h => ?_⟩
  have hPeer := h (sevensKey 2 1)
  revert hPeer
  decide

end Resurrect.Node
