import Resurrect.Node.CacheStoring

/-! # The cache over a history of batches

What the rows hold after batches for any namespaces, against the candidate store
that sees the same offers and against the peers that were live when last stored.
-/

namespace Resurrect.Node

open Resurrect.Core Bootstrap BoundedSample AssocMap Upsert Interaction

/-- The batches stored so far, each for its namespace. -/
abbrev StoreHistory := List (Namespace × List PeerCandidate)

def offered (ns : Namespace) (history : StoreHistory) : List PeerCandidate :=
  history.flatMap fun batch => if batch.1 = ns then batch.2 else []

theorem offered_append (ns : Namespace) (history : StoreHistory) (batch : Namespace × List PeerCandidate) :
    offered ns (history ++ [batch]) = offered ns history ++ if batch.1 = ns then batch.2 else [] := by
  rw [offered, List.flatMap_append, List.flatMap_singleton, ← offered]

theorem offered_one (ns : Namespace) (batches : List (List PeerCandidate)) :
    offered ns (batches.map fun batch => (ns, batch)) = batches.flatten := by
  simp [offered, List.flatMap_map, List.flatMap_id']

def FitAll (history : StoreHistory) : Prop := ∀ batch ∈ history, ∀ candidate ∈ batch.2, Fits candidate

instance decidableFitAll (history : StoreHistory) : Decidable (FitAll history) :=
  inferInstanceAs (Decidable (∀ batch ∈ history, ∀ candidate ∈ batch.2, Fits candidate))

theorem FitAll.offered {history : StoreHistory} (h : FitAll history) {ns : Namespace} {candidate : PeerCandidate}
    (hOffered : candidate ∈ offered ns history) : Fits candidate := by
  obtain ⟨batch, hBatch, hMem⟩ := List.mem_flatMap.mp hOffered
  split at hMem
  · exact h batch hBatch candidate hMem
  · cases hMem

section Ordered

variable {σ : Type} [LinearOrder σ] (order : SqlOrder σ)

def storeAll (history : StoreHistory) : VerifiedPeers :=
  history.foldl (fun table batch => (table.store order batch.1 batch.2).2) ∅

theorem storeAll_append (history : StoreHistory) (batch : Namespace × List PeerCandidate) :
    storeAll order (history ++ [batch]) = ((storeAll order history).store order batch.1 batch.2).2 :=
  List.foldl_append

theorem own_other_namespace {ns other : Namespace} (hOther : other ≠ ns) {key : PeerKey}
    (hKey : key.namespace = .blob (toBytes32 ns.bytes)) (batch : List PeerCandidate) :
    own (PeerKey.row other) batch key = [] := by
  refine List.filter_eq_nil_iff.mpr fun candidate _ hRow => hOther ?_
  have hRow := of_decide_eq_true hRow
  rw [← hRow] at hKey
  exact congrArg Namespace.mk (toBytes32_injective (SqlValue.blob.inj hKey))

theorem replaceAll_storeAll {ns : Namespace} {history : StoreHistory} (hFits : FitAll history) {key : PeerKey}
    (hKey : key.namespace = .blob (toBytes32 ns.bytes)) : (storeAll order history).lookup key =
      replaceAll (replaceRow order) none (own (PeerKey.row ns) (offered ns history) key) := by
  induction history using List.reverseRecOn with
  | nil => exact AList.lookup_empty key
  | append_singleton history batch ih =>
    have hBefore : FitAll history := fun other hOther => hFits other (List.mem_append_left _ hOther)
    rw [storeAll_append, store_of_fits order _ (hFits batch (by simp)), lookup_upsertAll, ih hBefore, offered_append,
      own_append, replaceAll_append]
    by_cases hNamespace : batch.1 = ns
    · rw [if_pos hNamespace, hNamespace]
    · rw [if_neg hNamespace, own_other_namespace hNamespace hKey]
      rfl

/-- The rows of a namespace hold the newest candidate stored under each key. -/
theorem lookup_storeAll {ns : Namespace} {history : StoreHistory} (hFits : FitAll history) {key : PeerKey}
    (hKey : key.namespace = .blob (toBytes32 ns.bytes)) : (storeAll order history).lookup key =
      (maxByKey stamp (own (PeerKey.row ns) (offered ns history) key)).map columns := by
  have hOwn : ∀ candidate ∈ own (PeerKey.row ns) (offered ns history) key, Fits candidate :=
    fun candidate hMem => hFits.offered ((mem_own _).mp hMem).1
  rw [replaceAll_storeAll order hFits hKey, replaceAll_replaceRow order hOwn]
  cases maxByKey stamp (own (PeerKey.row ns) (offered ns history) key) <;> rfl

theorem identityKey_eq_iff {candidate : PeerCandidate} {recordType : UInt32} {peerId : Bytes} :
    candidate.identityKey = toBeBytes recordType ++ peerId ↔
      candidate.recordType = recordType ∧ candidate.peerId = peerId :=
  @identityKey_inj candidate { candidate with recordType := recordType, peerId := peerId }

theorem row_eq_of {ns : Namespace} {candidate : PeerCandidate} {recordType : UInt32} {peerId : Bytes} :
    PeerKey.row ns candidate = .of ns recordType peerId ↔ candidate.identityKey = toBeBytes recordType ++ peerId := by
  rw [identityKey_eq_iff]
  constructor
  · intro h
    obtain ⟨-, hType, hPeer⟩ := PeerKey.mk.inj h
    have hWide := congrArg Int64.toUInt64 (SqlValue.integer.inj hType)
    rw [UInt64.toUInt64_toInt64, UInt64.toUInt64_toInt64] at hWide
    refine ⟨UInt32.toNat_inj.mp ?_, SqlValue.blob.inj hPeer⟩
    have hNat := congrArg UInt64.toNat hWide
    rwa [UInt32.toNat_toUInt64, UInt32.toNat_toUInt64] at hNat
  · rintro ⟨rfl, rfl⟩
    rfl

theorem own_row_eq_own_identity (ns : Namespace) (offers : List PeerCandidate) (recordType : UInt32) (peerId : Bytes) :
    own (PeerKey.row ns) offers (.of ns recordType peerId) =
      own PeerCandidate.identityKey offers (toBeBytes recordType ++ peerId) := by
  refine List.filter_congr fun candidate _ => ?_
  simp only [row_eq_of]

variable (keccak256 : Bytes → B256)

theorem get_insertAll {config : CandidateStoreConfig} {offers : List PeerCandidate}
    (hCap : (offers.map PeerCandidate.identityKey).dedup.length ≤ max 1 config.maxCandidates) (recordType : UInt32)
    (peerId : Bytes) : ((CandidateStore.new config).insertAll keccak256 offers).get recordType peerId =
      freshest PeerCandidate.identityKey PeerCandidate.freshness offers (toBeBytes recordType ++ peerId) := by
  have hSample := @CandidateStore.samples_new_insertAll keccak256 config offers
  have hCard : (identities PeerCandidate.identityKey offers).card ≤ max 1 config.maxCandidates := by
    rwa [identities, List.card_toFinset]
  have hKeys := hSample.keys_eq_of_card_le hCard
  by_cases hOffered : toBeBytes recordType ++ peerId ∈ identities PeerCandidate.identityKey offers
  · exact hSample.held _ (hKeys ▸ hOffered)
  · have hNone : freshest PeerCandidate.identityKey PeerCandidate.freshness offers (toBeBytes recordType ++ peerId) =
        none := freshest_eq_none.mpr fun offer hOffer hSame => hOffered (mem_identities.mpr ⟨offer, hOffer, hSame⟩)
    rw [hNone]
    exact hSample.absent _ (hKeys ▸ hOffered)

/-- The row of every identity holds what a candidate store with room for all of them retains. -/
def AgreesWithStore (ns : Namespace) (batches : List (List PeerCandidate)) (config : CandidateStoreConfig) : Prop :=
  ∀ recordType peerId, (storeAll order (batches.map fun batch => (ns, batch))).lookup (.of ns recordType peerId) =
    (((CandidateStore.new config).insertAll keccak256 batches.flatten).get recordType peerId).map columns

/-- Both keep the last of the greatest by sequence and block, unless an earlier offer has a greater log index
or the same position with other columns. -/
theorem agreesWithStore_iff {ns : Namespace} {batches : List (List PeerCandidate)} {config : CandidateStoreConfig}
    (hFits : ∀ batch ∈ batches, ∀ candidate ∈ batch, Fits candidate)
    (hCap : (batches.flatten.map PeerCandidate.identityKey).dedup.length ≤ max 1 config.maxCandidates) :
    AgreesWithStore order keccak256 ns batches config ↔ ∀ identity newest first,
      IsNewest stamp (own PeerCandidate.identityKey batches.flatten identity) newest →
      IsFreshest PeerCandidate.identityKey PeerCandidate.freshness batches.flatten identity first →
      columns newest = columns first := by
  have hHistory : FitAll (batches.map fun batch => (ns, batch)) := by
    intro entry hEntry
    obtain ⟨batch, hBatch, rfl⟩ := List.mem_map.mp hEntry
    exact hFits batch hBatch
  have hAgrees : AgreesWithStore order keccak256 ns batches config ↔ ∀ recordType peerId,
      (maxByKey stamp (own PeerCandidate.identityKey batches.flatten (toBeBytes recordType ++ peerId))).map columns =
        (freshest PeerCandidate.identityKey PeerCandidate.freshness batches.flatten
          (toBeBytes recordType ++ peerId)).map columns := by
    refine forall_congr' fun recordType => forall_congr' fun peerId => ?_
    rw [lookup_storeAll order hHistory rfl, offered_one, own_row_eq_own_identity, get_insertAll keccak256 hCap]
  rw [hAgrees]
  simp only [← maxByKey_eq_some, ← freshest_eq_some]
  constructor
  · intro h identity newest first hNewest hFirst
    obtain rfl := ((mem_own _).mp (maxByKey_spec hNewest).1).2
    have hColumns := h newest.recordType newest.peerId
    rw [← PeerCandidate.identityKey, hNewest, hFirst] at hColumns
    exact Option.some.inj hColumns
  · intro h recordType peerId
    cases hNewest : maxByKey stamp (own PeerCandidate.identityKey batches.flatten (toBeBytes recordType ++ peerId)) with
    | none =>
      have hNone : ∀ offer ∈ batches.flatten, offer.identityKey ≠ toBeBytes recordType ++ peerId := by
        intro offer hOffer hSame
        have hMem := (mem_own PeerCandidate.identityKey).mpr ⟨hOffer, hSame⟩
        rw [maxByKey_eq_none.mp hNewest] at hMem
        cases hMem
      rw [freshest_eq_none.mpr hNone, Option.map_none]
    | some newest =>
      obtain ⟨hOffer, hSame⟩ := (mem_own _).mp (maxByKey_spec hNewest).1
      cases hFirst : freshest PeerCandidate.identityKey PeerCandidate.freshness batches.flatten
          (toBeBytes recordType ++ peerId) with
      | none => exact absurd hSame (freshest_eq_none.mp hFirst newest hOffer)
      | some first => exact congrArg some (h _ newest first hNewest hFirst)

variable (cache : SqlitePeerCache)

/-- A candidate whose signed bytes the codec of an accepted type decodes to `identity`. -/
structure SignedFor (candidate : PeerCandidate) (identity : Bytes) : Prop where
  type_accepted : candidate.recordType ∈ cache.acceptedRecordTypes
  size : 1 ≤ candidate.rawSignedRecord.length ∧ candidate.rawSignedRecord.length ≤ 4096
  signed : ∃ codec decoded, cache.codecs.get candidate.recordType = some codec ∧
    codec.decodeAndVerify candidate.rawSignedRecord cache.dialContext = .ok decoded ∧
    decoded.recordType = candidate.recordType ∧ decoded.endpoints.length ≤ 16 ∧ decoded.identityKey = identity

def Discovers (table : VerifiedPeers) (ns : Namespace) (now : Duration) (identity : Bytes) : Prop :=
  ∃ candidates, cache.discover order keccak256 table ns (some now) = .ok candidates ∧
    ∃ candidate ∈ candidates, candidate.identityKey = identity

/-- A candidate as a load reads it back. -/
def asRow (candidate : PeerCandidate) : CachedRow where
  recordType := candidate.recordType
  rawSignedRecord := candidate.rawSignedRecord
  expiresAt := candidate.expiresAt
  blockNumber := candidate.announcementBlock
  logIndex := candidate.announcementLogIndex

theorem toU64_toInt64 {value : UInt64} {field : String} (h : value.toNat < 9223372036854775808) :
    PeerCache.toU64 value.toInt64 field = .ok value := by
  have hNonneg : (0 : Int) ≤ value.toNat := Int.natCast_nonneg _
  rw [PeerCache.toU64, toInt_toInt64 h, if_pos hNonneg, Int.toNat_natCast, UInt64.ofNat_toNat]

theorem toU32_toInt64 {value : UInt32} {field : String} :
    PeerCache.toU32 value.toUInt64.toInt64 field = .ok value := by
  have hLt : value.toUInt64.toNat < 4294967296 := by
    rw [UInt32.toNat_toUInt64]
    exact value.toNat_lt
  have hRange : (0 : Int) ≤ value.toUInt64.toNat ∧ (value.toUInt64.toNat : Int) < 4294967296 := by omega
  rw [PeerCache.toU32, toInt_toInt64 (by omega), if_pos hRange, Int.toNat_natCast, UInt32.toNat_toUInt64,
    UInt32.ofNat_toNat]

theorem optionalU64_toInt64 {value : Option UInt64} {field : String}
    (h : (value.getD 0).toNat < 9223372036854775808) :
    PeerCache.optionalU64 (value.map UInt64.toInt64) field = .ok value := by
  cases value with
  | none => rfl
  | some number =>
    rw [Option.getD_some] at h
    rw [Option.map_some, PeerCache.optionalU64, toU64_toInt64 h]
    rfl

theorem read_columns {ns : Namespace} {candidate : PeerCandidate} (h : Fits candidate) :
    CachedRow.read (PeerKey.row ns candidate) (columns candidate) = .ok (asRow candidate) := by
  simp only [CachedRow.read, bind_eq_ok, getI64_eq_ok, getBytes_eq_ok, getOptionalI64_eq_ok]
  refine ⟨_, rfl, _, rfl, _, rfl, candidate.announcementBlock.map UInt64.toInt64, ?_,
    candidate.announcementLogIndex.map UInt64.toInt64, ?_, _, toU32_toInt64, _, toU64_toInt64 h.expiresAt, _,
    optionalU64_toInt64 h.announcementBlock, _, optionalU64_toInt64 h.announcementLogIndex, rfl⟩
  · rw [columns, Option.map_map]
    rfl
  · rw [columns, Option.map_map]
    rfl

variable {keccak256 cache}

/-- With room for every row, an identity is discovered when some row can be loaded for it. -/
theorem discovers_iff_revivable {table : VerifiedPeers} {ns : Namespace} {now : Duration} {identity : Bytes}
    (hRows : ∀ entry ∈ table.select order ns, ∃ row, CachedRow.read entry.1 entry.2 = .ok row)
    (hFew : (table.inNamespace ns).keys.length ≤ cache.maxCandidates) :
    Discovers order keccak256 cache table ns now identity ↔
      ∃ candidate, Revivable cache table ns now.secs candidate ∧ candidate.identityKey = identity := by
  simp only [← mem_revived order]
  constructor
  · rintro ⟨candidates, hDiscover, candidate, hMem, hIdentity⟩
    obtain ⟨time, hTime, -, rfl⟩ := SqlitePeerCache.load_eq_ok.mp (SqlitePeerCache.discover_eq_ok.mp hDiscover)
    obtain rfl := Option.some.inj hTime
    exact ⟨candidate, (CandidateStore.greatest_of_mem_ranked hMem).1, hIdentity⟩
  · rintro ⟨candidate, hMem, hIdentity⟩
    have hRoom : ((cache.revived order table ns now.secs).map PeerCandidate.identityKey).dedup.length ≤
        max 1 (cache.storeConfig ns).maxCandidates :=
      calc ((cache.revived order table ns now.secs).map PeerCandidate.identityKey).dedup.length
        _ ≤ ((cache.revived order table ns now.secs).map PeerCandidate.identityKey).length :=
          (List.dedup_sublist _).length_le
        _ ≤ (table.select order ns).length := (List.length_map _).trans_le (List.length_filterMap_le _ _)
        _ = (table.inNamespace ns).keys.length := (sortByKey_perm _ _).length_eq.trans (List.length_map _).symm
        _ ≤ max 1 (cache.storeConfig ns).maxCandidates := hFew.trans (le_max_right _ _)
    obtain ⟨found, hFound, hSame⟩ := @CandidateStore.exists_ranked_of_few keccak256 _ _ hRoom candidate hMem
    refine ⟨_, SqlitePeerCache.discover_eq_ok.mpr (SqlitePeerCache.load_eq_ok.mpr ⟨now, rfl, hRows, rfl⟩), found, hFound, ?_⟩
    rw [hSame, hIdentity]

theorem lookup_storeAll_eq_some {ns : Namespace} {history : StoreHistory} (hFits : FitAll history) {key : PeerKey}
    (hKey : key.namespace = .blob (toBytes32 ns.bytes)) {row : PeerRow} :
    (storeAll order history).lookup key = some row ↔ ∃ newest,
      IsNewest stamp (own PeerCandidate.identityKey (offered ns history) newest.identityKey) newest ∧
        key = PeerKey.row ns newest ∧ row = columns newest := by
  simp only [← maxByKey_eq_some, PeerCandidate.identityKey, ← own_row_eq_own_identity ns]
  rw [lookup_storeAll order hFits hKey, Option.map_eq_some_iff]
  constructor
  · rintro ⟨newest, hNewest, rfl⟩
    obtain rfl := ((mem_own _).mp (maxByKey_spec hNewest).1).2
    exact ⟨newest, hNewest, rfl, rfl⟩
  · rintro ⟨newest, hNewest, rfl, rfl⟩
    exact ⟨newest, hNewest, rfl⟩

theorem revalidated_asRow_iff {now : UInt64} {candidate : PeerCandidate} {identity : Bytes} :
    (∃ revived, Revalidated cache now (asRow candidate) revived ∧ revived.identityKey = identity) ↔
      now < candidate.expiresAt ∧ SignedFor cache candidate identity := by
  constructor
  · rintro ⟨_, ⟨hType, hSize, hLive, codec, decoded, hCodec, hDecode, hSame, hEndpoints, rfl⟩, rfl⟩
    exact ⟨hLive, hType, hSize, codec, decoded, hCodec, hDecode, hSame, hEndpoints, rfl⟩
  · rintro ⟨hLive, hType, hSize, codec, decoded, hCodec, hDecode, hSame, hEndpoints, rfl⟩
    exact ⟨_, ⟨hType, hSize, hLive, codec, decoded, hCodec, hDecode, hSame, hEndpoints, rfl⟩, rfl⟩

/-- The live peer theorem: a peer is discovered while the newest record stored for it has not expired; an older
one that would still be live was overwritten or never written. -/
theorem discovers_storeAll_iff {ns : Namespace} {history : StoreHistory} (hFits : FitAll history)
    (hFew : ((storeAll order history).inNamespace ns).keys.length ≤ cache.maxCandidates) {now : Duration}
    {identity : Bytes} : Discovers order keccak256 cache (storeAll order history) ns now identity ↔
      ∃ newest, IsNewest stamp (own PeerCandidate.identityKey (offered ns history) newest.identityKey) newest ∧
        now.secs < newest.expiresAt ∧ SignedFor cache newest identity := by
  have hRead : ∀ {key stored}, (storeAll order history).lookup key = some stored →
      key.namespace = .blob (toBytes32 ns.bytes) → ∃ newest,
        IsNewest stamp (own PeerCandidate.identityKey (offered ns history) newest.identityKey) newest ∧
          CachedRow.read key stored = .ok (asRow newest) := by
    intro key stored hLookup hKey
    obtain ⟨newest, hNewest, rfl, rfl⟩ := (lookup_storeAll_eq_some order hFits hKey).mp hLookup
    have hOffered := ((mem_own _).mp hNewest.mem).1
    exact ⟨newest, hNewest, read_columns (hFits.offered hOffered)⟩
  rw [discovers_iff_revivable order (fun entry hEntry => ?_) hFew]
  · simp only [← revalidated_asRow_iff]
    constructor
    · rintro ⟨candidate, ⟨key, stored, row, hLookup, hKey, hRow, hValid⟩, hIdentity⟩
      obtain ⟨newest, hNewest, hAsRow⟩ := hRead hLookup hKey
      obtain rfl := Except.ok.inj (hRow.symm.trans hAsRow)
      exact ⟨newest, hNewest, candidate, hValid, hIdentity⟩
    · rintro ⟨newest, hNewest, candidate, hValid, hIdentity⟩
      have hOffered := ((mem_own _).mp hNewest.mem).1
      exact ⟨candidate, ⟨PeerKey.row ns newest, columns newest, asRow newest,
        (lookup_storeAll_eq_some order hFits rfl).mpr ⟨newest, hNewest, rfl, rfl⟩, rfl,
        read_columns (hFits.offered hOffered), hValid⟩, hIdentity⟩
  · obtain ⟨hLookup, hKey⟩ := (VerifiedPeers.mem_select order).mp hEntry
    obtain ⟨newest, -, hRow⟩ := hRead hLookup hKey
    exact ⟨asRow newest, hRow⟩

end Ordered

def twoByteAnnouncement (raw : Bytes) (validUntil block logIndex : UInt64) : Announcement where
  «namespace» := sevensNamespace
  recordType := recordTypeLibp2p
  validUntil := validUntil
  peerRecord := raw
  blockNumber := block
  logIndex := logIndex
  blockHash := none

def twoByteOffer (peer sequence : UInt8) (validUntil block logIndex : UInt64) : PeerCandidate where
  recordType := recordTypeLibp2p
  peerId := [peer]
  sequence := sequence.toUInt64
  endpoints := [⟨"/ip4/8.8.8.8/tcp/4001"⟩]
  rawSignedRecord := [peer, sequence]
  expiresAt := validUntil
  source := .resurrectRegistry
  announcementBlock := some block
  announcementLogIndex := some logIndex

theorem agreesWithStore_iff_renewed :
    AgreesWithStore storageOrder CandidateStore.seededKeccak sevensNamespace
      [[twoByteOffer 1 8 200 12 5, twoByteOffer 2 3 200 13 0], [twoByteOffer 1 9 900 40 1]] ⟨16, sevensNamespace.bytes⟩ ↔
    ∀ identity newest first,
      IsNewest stamp (own PeerCandidate.identityKey
        [[twoByteOffer 1 8 200 12 5, twoByteOffer 2 3 200 13 0], [twoByteOffer 1 9 900 40 1]].flatten identity) newest →
      IsFreshest PeerCandidate.identityKey PeerCandidate.freshness
        [[twoByteOffer 1 8 200 12 5, twoByteOffer 2 3 200 13 0], [twoByteOffer 1 9 900 40 1]].flatten identity first →
      columns newest = columns first :=
  agreesWithStore_iff storageOrder CandidateStore.seededKeccak (by decide) (by decide)

/-- Two announcements of one record in one block: once the later one has expired, a scan that sees only the
earlier one replaces it in the cache but not in the store. -/
theorem earlierLog_replaces :
    twoByteCache.codecs.validateAnnouncement (twoByteAnnouncement [1, 8] 200 12 5)
      (twoByteCache.policy sevensNamespace 100) = .ok (twoByteOffer 1 8 200 12 5) ∧
    twoByteCache.codecs.validateAnnouncement (twoByteAnnouncement [1, 8] 1000 12 3)
      (twoByteCache.policy sevensNamespace 250) = .ok (twoByteOffer 1 8 1000 12 3) ∧
    (storeAll storageOrder ([[twoByteOffer 1 8 200 12 5], [twoByteOffer 1 8 1000 12 3]].map fun batch =>
      (sevensNamespace, batch))).lookup (.of sevensNamespace recordTypeLibp2p [1]) =
        some (columns (twoByteOffer 1 8 1000 12 3)) ∧
    ((CandidateStore.new ⟨16, sevensNamespace.bytes⟩).insertAll CandidateStore.seededKeccak
      [[twoByteOffer 1 8 200 12 5], [twoByteOffer 1 8 1000 12 3]].flatten).get recordTypeLibp2p [1] =
        some (twoByteOffer 1 8 200 12 5) ∧
    ¬ AgreesWithStore storageOrder CandidateStore.seededKeccak sevensNamespace
      [[twoByteOffer 1 8 200 12 5], [twoByteOffer 1 8 1000 12 3]] ⟨16, sevensNamespace.bytes⟩ := by
  refine ⟨by decide, by decide, by decide, by decide, fun h => ?_⟩
  have hPeer := h recordTypeLibp2p [1]
  revert hPeer
  decide

/-- A record announced for long, and again for a short while. -/
def replayedHistory : StoreHistory :=
  [(sevensNamespace, [twoByteOffer 1 8 200 20 0]), (sevensNamespace, [twoByteOffer 1 8 1000 10 0])]

theorem discovers_storeAll_iff_replayed :
    Discovers storageOrder CandidateStore.seededKeccak twoByteCache (storeAll storageOrder replayedHistory)
        sevensNamespace ⟨150, 0⟩ (twoByteOffer 1 8 1000 10 0).identityKey ↔
      ∃ newest, IsNewest stamp (own PeerCandidate.identityKey (offered sevensNamespace replayedHistory)
          newest.identityKey) newest ∧
        150 < newest.expiresAt ∧ SignedFor twoByteCache newest (twoByteOffer 1 8 1000 10 0).identityKey :=
  discovers_storeAll_iff storageOrder (by decide) (by decide)

/-- Once the short announcement has expired, the long one is offered again and not written. -/
theorem replayedRecord_hides :
    twoByteCache.codecs.validateAnnouncement (twoByteAnnouncement [1, 8] 200 20 0)
      (twoByteCache.policy sevensNamespace 100) = .ok (twoByteOffer 1 8 200 20 0) ∧
    twoByteCache.codecs.validateAnnouncement (twoByteAnnouncement [1, 8] 1000 10 0)
      (twoByteCache.policy sevensNamespace 250) = .ok (twoByteOffer 1 8 1000 10 0) ∧
    replayedHistory.getLast? = some (sevensNamespace, [twoByteOffer 1 8 1000 10 0]) ∧ FitAll replayedHistory ∧
    (∀ other ∈ offered sevensNamespace replayedHistory, other.sequence ≤ (twoByteOffer 1 8 1000 10 0).sequence) ∧
    (storeAll storageOrder replayedHistory).keys.length ≤ twoByteCache.maxCandidates ∧
    twoByteCache.discover storageOrder CandidateStore.seededKeccak (storeAll storageOrder replayedHistory)
      sevensNamespace (some ⟨250, 0⟩) = .ok [] ∧
    ¬ Discovers storageOrder CandidateStore.seededKeccak twoByteCache (storeAll storageOrder replayedHistory)
      sevensNamespace ⟨250, 0⟩ (twoByteOffer 1 8 1000 10 0).identityKey := by
  have hEmpty : twoByteCache.discover storageOrder CandidateStore.seededKeccak (storeAll storageOrder replayedHistory)
      sevensNamespace (some ⟨250, 0⟩) = .ok [] := by
    decide +kernel
  refine ⟨by decide, by decide, by decide, by decide, by decide,
    by decide, hEmpty, ?_⟩
  rintro ⟨candidates, hDiscover, candidate, hMem, -⟩
  rw [hEmpty] at hDiscover
  obtain rfl := Except.ok.inj hDiscover
  cases hMem

end Resurrect.Node
