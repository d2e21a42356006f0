import Resurrect.Node.RegistryDiscovery
import Resurrect.Core.StoreSample
import Resurrect.Node.SqlValue
import Resurrect.Foundation.Duration
import Resurrect.Foundation.Upsert
import Mathlib.Order.WithBot
import Mathlib.Order.OrderDual

/-! # The SQLite peer cache

The table `verified_peers`, the statements that read and write it and the
revalidation of what is read. Any row may have been written by someone else, so
its columns hold values of any storage class.
-/

namespace Resurrect.Node

open Resurrect.Core Bootstrap BoundedSample AssocMap Upsert Interaction

/-- The primary key of a row of `verified_peers`. -/
structure PeerKey where
  «namespace» : SqlValue
  recordType : SqlValue
  peerId : SqlValue
  deriving DecidableEq, Repr

/-- The other columns of a row; the position may be NULL. -/
structure PeerRow where
  sequence : SqlValue
  rawSignedRecord : SqlValue
  expiresAt : SqlValue
  announcementBlock : Option SqlValue
  announcementLogIndex : Option SqlValue
  deriving DecidableEq, Repr

abbrev VerifiedPeers := AList fun _ : PeerKey => PeerRow

def CacheError.toString : CacheError → String
  | .io message => "cache filesystem operation failed: " ++ message
  | .sqlite message => "cache SQLite operation failed: " ++ message
  | .task message => "cache task failed: " ++ message
  | .clock => "system clock predates the Unix epoch"
  | .numericOverflow field => "cache field " ++ field ++ " exceeds SQLite integer range"
  | .invalidRow field => "cache row contains invalid " ++ field

namespace PeerCache

def toI64 (value : UInt64) (field : String) : Except CacheError Int64 :=
  if value.toNat < 9223372036854775808 then .ok value.toInt64 else .error (.numericOverflow field)

def toU32 (value : Int64) (field : String) : Except CacheError UInt32 :=
  if 0 ≤ value.toInt ∧ value.toInt < 4294967296 then .ok (.ofNat value.toInt.toNat)
  else .error (.invalidRow field)

def toU64 (value : Int64) (field : String) : Except CacheError UInt64 :=
  if 0 ≤ value.toInt then .ok (.ofNat value.toInt.toNat) else .error (.invalidRow field)

def optionalU64 (value : Option Int64) (field : String) : Except CacheError (Option UInt64) :=
  match value with
  | none => .ok none
  | some value => (toU64 value field).map some

def optionalI64 (value : Option UInt64) (field : String) : Except CacheError (Option Int64) :=
  match value with
  | none => .ok none
  | some value => (toI64 value field).map some

def unixTime (now : Option Duration) : Except CacheError UInt64 :=
  match now with
  | none => .error .clock
  | some sinceEpoch => .ok sinceEpoch.secs

end PeerCache

def SqlValue.typeName : SqlValue → String
  | .integer _ => "Integer"
  | .real _ => "Real"
  | .text _ => "Text"
  | .blob _ => "Blob"

/-- Where a column stands in the SELECT, and its name. -/
structure Column where
  index : Nat
  name : String

def Column.invalidType (column : Column) (value : SqlValue) : CacheError :=
  .sqlite ("Invalid column type " ++ value.typeName ++ " at index: " ++ toString column.index ++
    ", name: " ++ column.name)

def Column.getI64 (column : Column) : SqlValue → Except CacheError Int64
  | .integer value => .ok value
  | value => .error (column.invalidType value)

def Column.getBytes (column : Column) : SqlValue → Except CacheError Bytes
  | .blob value => .ok value
  | value => .error (column.invalidType value)

def Column.getOptionalI64 (column : Column) : Option SqlValue → Except CacheError (Option Int64)
  | none => .ok none
  | some value => (column.getI64 value).map some

structure CachedRow where
  recordType : UInt32
  rawSignedRecord : Bytes
  expiresAt : UInt64
  blockNumber : Option UInt64
  logIndex : Option UInt64
  deriving DecidableEq, Repr

/-- All columns are read before any number is converted. -/
def CachedRow.read (key : PeerKey) (row : PeerRow) : Except CacheError CachedRow := do
  let recordType ← Column.getI64 ⟨0, "record_type"⟩ key.recordType
  let rawSignedRecord ← Column.getBytes ⟨1, "raw_signed_record"⟩ row.rawSignedRecord
  let expiresAt ← Column.getI64 ⟨2, "expires_at"⟩ row.expiresAt
  let blockNumber ← Column.getOptionalI64 ⟨3, "announcement_block"⟩ row.announcementBlock
  let logIndex ← Column.getOptionalI64 ⟨4, "announcement_log_index"⟩ row.announcementLogIndex
  let recordType ← PeerCache.toU32 recordType "record_type"
  let expiresAt ← PeerCache.toU64 expiresAt "expires_at"
  let blockNumber ← PeerCache.optionalU64 blockNumber "announcement_block"
  let logIndex ← PeerCache.optionalU64 logIndex "announcement_log_index"
  pure { recordType, rawSignedRecord, expiresAt, blockNumber, logIndex }

/-- The rows whose columns have the types and ranges that a cached row has. -/
structure Convertible (key : PeerKey) (row : PeerRow) : Prop where
  recordType : ∃ value : Int64, key.recordType = .integer value ∧ 0 ≤ value.toInt ∧ value.toInt < 4294967296
  rawSignedRecord : ∃ bytes, row.rawSignedRecord = .blob bytes
  expiresAt : ∃ value : Int64, row.expiresAt = .integer value ∧ 0 ≤ value.toInt
  announcementBlock : ∀ column ∈ row.announcementBlock, ∃ value : Int64, column = .integer value ∧ 0 ≤ value.toInt
  announcementLogIndex : ∀ column ∈ row.announcementLogIndex,
    ∃ value : Int64, column = .integer value ∧ 0 ≤ value.toInt

theorem getI64_eq_ok {column : Column} {value : SqlValue} {result : Int64} :
    column.getI64 value = .ok result ↔ value = .integer result := by
  cases value with
  | integer => simp [Column.getI64]
  | real => simp [Column.getI64]
  | text => simp [Column.getI64]
  | blob => simp [Column.getI64]

theorem getBytes_eq_ok {column : Column} {value : SqlValue} {result : Bytes} :
    column.getBytes value = .ok result ↔ value = .blob result := by
  cases value with
  | integer => simp [Column.getBytes]
  | real => simp [Column.getBytes]
  | text => simp [Column.getBytes]
  | blob => simp [Column.getBytes]

theorem getOptionalI64_eq_ok {column : Column} {value : Option SqlValue} {result : Option Int64} :
    column.getOptionalI64 value = .ok result ↔ value = result.map .integer := by
  cases value with
  | none => cases result <;> simp [Column.getOptionalI64]
  | some value =>
    cases value with
    | integer => cases result <;> simp [Column.getOptionalI64, Column.getI64, Except.map]
    | real => cases result <;> simp [Column.getOptionalI64, Column.getI64, Except.map]
    | text => cases result <;> simp [Column.getOptionalI64, Column.getI64, Except.map]
    | blob => cases result <;> simp [Column.getOptionalI64, Column.getI64, Except.map]

theorem exists_toU32 {value : Int64} {field : String} : (∃ result, PeerCache.toU32 value field = .ok result) ↔
    0 ≤ value.toInt ∧ value.toInt < 4294967296 := by
  rw [PeerCache.toU32]
  split <;> simp [*]

theorem exists_toU64 {value : Int64} {field : String} :
    (∃ result, PeerCache.toU64 value field = .ok result) ↔ 0 ≤ value.toInt := by
  rw [PeerCache.toU64]
  split <;> simp [*]

theorem exists_optionalU64 {value : Option Int64} {field : String} :
    (∃ result, PeerCache.optionalU64 value field = .ok result) ↔ ∀ number ∈ value, 0 ≤ number.toInt := by
  cases value with
  | none => simp [PeerCache.optionalU64]
  | some value =>
    simp only [Option.mem_some, forall_eq', ← @exists_toU64 _ field, PeerCache.optionalU64]
    cases PeerCache.toU64 value field <;> simp [Except.map]

theorem exists_optional {column : Option SqlValue} {field : String} :
    (∃ value : Option Int64, column = value.map .integer ∧ ∃ result, PeerCache.optionalU64 value field = .ok result) ↔
      ∀ held ∈ column, ∃ value : Int64, held = .integer value ∧ 0 ≤ value.toInt := by
  simp only [exists_optionalU64]
  constructor
  · rintro ⟨value, rfl, hRange⟩ held hHeld
    obtain ⟨number, hNumber, rfl⟩ := Option.map_eq_some_iff.mp hHeld
    exact ⟨number, rfl, hRange number hNumber⟩
  · intro h
    cases column with
    | none => exact ⟨none, rfl, fun number hNumber => by cases hNumber⟩
    | some held =>
      obtain ⟨number, rfl, hRange⟩ := h held rfl
      refine ⟨some number, rfl, fun other hOther => ?_⟩
      obtain rfl := Option.some.inj hOther
      exact hRange

theorem exists_read_eq_ok {key : PeerKey} {row : PeerRow} :
    (∃ cached, CachedRow.read key row = .ok cached) ↔ Convertible key row := by
  simp only [CachedRow.read, bind_eq_ok, getI64_eq_ok, getBytes_eq_ok, getOptionalI64_eq_ok]
  constructor
  · rintro ⟨cached, type, hType, raw, hRaw, expiry, hExpiry, block, hBlock, log, hLog, hRest⟩
    obtain ⟨_, hToType, _, hToExpiry, _, hToBlock, _, hToLog, -⟩ := hRest
    exact ⟨⟨type, hType, exists_toU32.mp ⟨_, hToType⟩⟩, ⟨raw, hRaw⟩, ⟨expiry, hExpiry, exists_toU64.mp ⟨_, hToExpiry⟩⟩,
      exists_optional.mp ⟨block, hBlock, _, hToBlock⟩, exists_optional.mp ⟨log, hLog, _, hToLog⟩⟩
  · rintro ⟨⟨type, hType, hTypeRange⟩, ⟨raw, hRaw⟩, ⟨expiry, hExpiry, hExpiryRange⟩, hBlock, hLog⟩
    obtain ⟨_, hToType⟩ := exists_toU32.mpr hTypeRange
    obtain ⟨_, hToExpiry⟩ := exists_toU64.mpr hExpiryRange
    obtain ⟨block, hBlock, _, hToBlock⟩ := exists_optional.mpr hBlock
    obtain ⟨log, hLog, _, hToLog⟩ := exists_optional.mpr hLog
    exact ⟨_, type, hType, raw, hRaw, expiry, hExpiry, block, hBlock, log, hLog,
      _, hToType, _, hToExpiry, _, hToBlock, _, hToLog, rfl⟩

def PeerKey.of (ns : Namespace) (recordType : UInt32) (peerId : Bytes) : PeerKey where
  «namespace» := .blob (toBytes32 ns.bytes)
  recordType := .integer recordType.toUInt64.toInt64
  peerId := .blob peerId

def PeerKey.row (ns : Namespace) (candidate : PeerCandidate) : PeerKey := .of ns candidate.recordType candidate.peerId

def PeerRow.write (candidate : PeerCandidate) : Except CacheError PeerRow := do
  let sequence ← PeerCache.toI64 candidate.sequence "sequence"
  let expiresAt ← PeerCache.toI64 candidate.expiresAt "expires_at"
  let block ← PeerCache.optionalI64 candidate.announcementBlock "announcement_block"
  let logIndex ← PeerCache.optionalI64 candidate.announcementLogIndex "announcement_log_index"
  pure { sequence := .integer sequence
         rawSignedRecord := .blob candidate.rawSignedRecord
         expiresAt := .integer expiresAt
         announcementBlock := block.map .integer
         announcementLogIndex := logIndex.map .integer }

section Ordered

variable {σ : Type} [LinearOrder σ] (order : SqlOrder σ)

/-- `COALESCE(announcement_block, 0)`. -/
def PeerRow.block (row : PeerRow) : SqlValue := row.announcementBlock.getD (.integer 0)

/-- The guard of the upsert: when an existing row gives way to the one offered. -/
def SqlOrder.Supersedes (excluded stored : PeerRow) : Prop :=
  order.rank stored.sequence < order.rank excluded.sequence ∨
    order.rank excluded.sequence = order.rank stored.sequence ∧
      order.rank stored.block ≤ order.rank excluded.block

instance decidableSupersedes (excluded stored : PeerRow) : Decidable (order.Supersedes excluded stored) :=
  inferInstanceAs (Decidable (_ ∨ _))

/-- INSERT, or on a conflict UPDATE where the guard holds. -/
def SqlOrder.conflict (existing : Option PeerRow) (excluded : PeerRow) : PeerRow :=
  match existing with
  | none => excluded
  | some stored => if order.Supersedes excluded stored then excluded else stored

namespace VerifiedPeers

def execute (ns : Namespace) (table : VerifiedPeers) (candidate : PeerCandidate) : Except CacheError VerifiedPeers := do
  let row ← PeerRow.write candidate
  pure (table.insert (.row ns candidate) (order.conflict (table.lookup (.row ns candidate)) row))

/-- One transaction for all candidates; the first error drops it uncommitted. -/
def store (table : VerifiedPeers) (ns : Namespace) (candidates : List PeerCandidate) :
    Except CacheError Unit × VerifiedPeers :=
  match candidates.foldlM (execute order ns) table with
  | .error error => (.error error, table)
  | .ok stored => (.ok (), stored)

/-- `WHERE namespace = ?1`. -/
def inNamespace (table : VerifiedPeers) (ns : Namespace) : VerifiedPeers :=
  keep table fun key _ => decide (key.namespace = .blob (toBytes32 ns.bytes))

/-- `ORDER BY sequence DESC, announcement_block DESC`, where NULL is least. Rows tied in both come in the
order of the primary key they are found by. -/
def orderKey (entry : Sigma fun _ : PeerKey => PeerRow) : σᵒᵈ ×ₗ (WithBot σ)ᵒᵈ ×ₗ σ ×ₗ σ :=
  toLex (OrderDual.toDual (order.rank entry.2.sequence), toLex
    (OrderDual.toDual (entry.2.announcementBlock.map order.rank : WithBot σ), toLex
      (order.rank entry.1.recordType, order.rank entry.1.peerId)))

def select (table : VerifiedPeers) (ns : Namespace) : List (Sigma fun _ : PeerKey => PeerRow) :=
  sortByKey (orderKey order) (table.inNamespace ns).entries

theorem mem_inNamespace {table : VerifiedPeers} {ns : Namespace} {entry : Sigma fun _ : PeerKey => PeerRow} :
    entry ∈ (table.inNamespace ns).entries ↔ table.lookup entry.1 = some entry.2 ∧
      entry.1.namespace = .blob (toBytes32 ns.bytes) := by
  have hKeep := @lookup_keep_eq_some _ _ _ table
    (fun key _ => decide (key.namespace = .blob (toBytes32 ns.bytes))) entry.1 entry.2
  rw [← Option.mem_def, AList.mem_lookup_iff, decide_eq_true_eq] at hKeep
  exact hKeep

theorem mem_select {table : VerifiedPeers} {ns : Namespace} {entry : Sigma fun _ : PeerKey => PeerRow} :
    entry ∈ select order table ns ↔ table.lookup entry.1 = some entry.2 ∧
      entry.1.namespace = .blob (toBytes32 ns.bytes) :=
  (sortByKey_perm _ _).mem_iff.trans mem_inNamespace

theorem orderKey_inj {table : VerifiedPeers} {ns : Namespace} {a b : Sigma fun _ : PeerKey => PeerRow}
    (ha : a ∈ (table.inNamespace ns).entries) (hb : b ∈ (table.inNamespace ns).entries)
    (h : orderKey order a = orderKey order b) : a = b := by
  obtain ⟨hLookupA, hNamespaceA⟩ := mem_inNamespace.mp ha
  obtain ⟨hLookupB, hNamespaceB⟩ := mem_inNamespace.mp hb
  simp only [orderKey, toLex_inj, Prod.mk.injEq, order.rank_injective.eq_iff] at h
  obtain ⟨-, -, hType, hPeer⟩ := h
  obtain ⟨⟨ns₁, type₁, peer₁⟩, row₁⟩ := a
  obtain ⟨⟨ns₂, type₂, peer₂⟩, row₂⟩ := b
  dsimp only at hType hPeer hNamespaceA hNamespaceB hLookupA hLookupB
  subst hType hPeer hNamespaceA hNamespaceB
  rw [hLookupA] at hLookupB
  rw [Option.some.inj hLookupB]

theorem select_eq_of_sorted {table : VerifiedPeers} {ns : Namespace} {rows : List (Sigma fun _ : PeerKey => PeerRow)}
    (hNodup : rows.Nodup) (hSorted : rows.Pairwise fun a b => orderKey order a ≤ orderKey order b)
    (hMem : ∀ entry, entry ∈ rows ↔ table.lookup entry.1 = some entry.2 ∧
      entry.1.namespace = .blob (toBytes32 ns.bytes)) : select order table ns = rows := by
  apply sortByKey_eq_of_sorted _ hSorted fun a ha b hb => orderKey_inj order ha hb
  refine (List.perm_ext_iff_of_nodup (table.inNamespace ns).nodupKeys.nodup hNodup).mpr fun entry => ?_
  rw [hMem, mem_inNamespace]

theorem select_eq_entries {table : VerifiedPeers} {ns : Namespace} (hSorted : (table.inNamespace ns).entries.Pairwise
    fun a b => orderKey order a ≤ orderKey order b) : select order table ns = (table.inNamespace ns).entries :=
  select_eq_of_sorted order (table.inNamespace ns).nodupKeys.nodup hSorted fun _ => mem_inNamespace

theorem nodup_select (table : VerifiedPeers) (ns : Namespace) : (select order table ns).Nodup :=
  (sortByKey_perm _ _).nodup_iff.mpr (table.inNamespace ns).nodupKeys.nodup

/-- The SELECT sees the rows of its namespace and nothing else. -/
theorem select_congr {table other : VerifiedPeers} {ns : Namespace}
    (h : ∀ key : PeerKey, key.namespace = .blob (toBytes32 ns.bytes) → table.lookup key = other.lookup key) :
    select order table ns = select order other ns := by
  apply select_eq_of_sorted order (nodup_select order other ns) (sortByKey_pairwise _ _)
  intro entry
  rw [mem_select]
  exact and_congr_left fun hNamespace => by rw [h _ hNamespace]

def loadRows (table : VerifiedPeers) (ns : Namespace) : Except CacheError (List CachedRow) :=
  (select order table ns).mapM fun entry => CachedRow.read entry.1 entry.2

end VerifiedPeers

structure SqlitePeerCache where
  codecs : CodecRegistry
  acceptedRecordTypes : List UInt32
  dialContext : DialContext
  maxCandidates : Nat
  cap_pos : 1 ≤ maxCandidates

namespace SqlitePeerCache

/-- `open`: a cap of zero becomes one. -/
def opened (codecs : CodecRegistry) (acceptedRecordTypes : List UInt32) (dialContext : DialContext)
    (maxCandidates : Nat) : SqlitePeerCache :=
  ⟨codecs, acceptedRecordTypes, dialContext, max maxCandidates 1, le_max_right _ _⟩

def announcement (ns : Namespace) (row : CachedRow) : Announcement where
  «namespace» := ns
  recordType := row.recordType
  validUntil := row.expiresAt
  peerRecord := row.rawSignedRecord
  blockNumber := row.blockNumber.getD 0
  logIndex := row.logIndex.getD 0
  blockHash := none

variable (keccak256 : Bytes → B256) (cache : SqlitePeerCache)

def policy (ns : Namespace) (now : UInt64) : AnnouncementPolicy where
  expectedNamespace := ns
  acceptedRecordTypes := cache.acceptedRecordTypes
  chainTime := now
  maxRecordBytes := defaultMaxRecordBytes
  maxEndpoints := defaultMaxEndpointsPerRecord
  dialContext := cache.dialContext

def revalidate (ns : Namespace) (now : UInt64) (row : CachedRow) : Option PeerCandidate :=
  match cache.codecs.validateAnnouncement (announcement ns row) (cache.policy ns now) with
  | .ok candidate => some { candidate with source := .localCache }
  | .error _ => none

def storeConfig (ns : Namespace) : CandidateStoreConfig where
  maxCandidates := cache.maxCandidates
  samplingSeed := ns.bytes

def offerRow (ns : Namespace) (now : UInt64) (store : CandidateStore) (row : CachedRow) : CandidateStore :=
  match cache.revalidate ns now row with
  | some candidate => (store.insert keccak256 candidate).2
  | none => store

def load (table : VerifiedPeers) (ns : Namespace) (now : Option Duration) :
    Except CacheError (List PeerCandidate) := do
  let rows ← table.loadRows order ns
  let now ← PeerCache.unixTime now
  let store := rows.foldl (cache.offerRow keccak256 ns now) (CandidateStore.new (cache.storeConfig ns))
  pure (store.ranked keccak256)

def discover (table : VerifiedPeers) (ns : Namespace) (now : Option Duration) :
    Except BootstrapError (List PeerCandidate) :=
  (cache.load order keccak256 table ns now).mapError fun error => .discovery error.toString

end SqlitePeerCache

end Ordered

end Resurrect.Node
