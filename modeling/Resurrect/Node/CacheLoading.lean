import Resurrect.Node.PeerCache

/-! # What a load of the cache returns

A load is a pass over the rows of one namespace: the first row that cannot be
converted ends it, and a row that does not validate is skipped. The candidates
of the others go through a candidate store, so whatever the rows say, only signed
records come out, one for each identity.
-/

namespace Resurrect.Node

open Resurrect.Core Bootstrap BoundedSample AssocMap

section Traversal

variable {α β γ ε : Type} {f : α → Except ε β} {items : List α} {results : List β}

theorem mapM_cons_eq_ok {item : α} : (item :: items).mapM f = .ok results ↔
    ∃ result rest, f item = .ok result ∧ items.mapM f = .ok rest ∧ results = result :: rest := by
  rw [List.mapM_cons]
  cases hItem : f item with
  | error error =>
    refine ⟨fun h => ?_, ?_⟩
    · cases h
    · rintro ⟨_, _, h, -⟩
      cases h
  | ok result =>
    cases hRest : items.mapM f with
    | error error =>
      refine ⟨fun h => ?_, ?_⟩
      · cases h
      · rintro ⟨_, _, -, h, -⟩
        cases h
    | ok rest =>
      refine ⟨fun h => ⟨result, rest, rfl, rfl, (Except.ok.inj h).symm⟩, ?_⟩
      rintro ⟨_, _, hResult, hRest, rfl⟩
      rw [Except.ok.inj hResult, Except.ok.inj hRest]
      rfl

theorem filterMap_of_mapM (h : items.mapM f = .ok results) (g : β → Option γ) :
    results.filterMap g = items.filterMap fun item => (f item).toOption.bind g := by
  induction items generalizing results with
  | nil =>
    obtain rfl := Except.ok.inj h
    rfl
  | cons item items ih =>
    obtain ⟨result, rest, hItem, hRest, rfl⟩ := mapM_cons_eq_ok.mp h
    rw [List.filterMap_cons, List.filterMap_cons, ih hRest, hItem]
    rfl

theorem exists_mapM_eq_ok : (∃ results, items.mapM f = .ok results) ↔ ∀ item ∈ items, ∃ result, f item = .ok result := by
  induction items with
  | nil => exact iff_of_true ⟨[], rfl⟩ (List.forall_mem_nil _)
  | cons item items ih =>
    rw [List.forall_mem_cons, ← ih]
    constructor
    · rintro ⟨results, h⟩
      obtain ⟨result, rest, hItem, hRest, -⟩ := mapM_cons_eq_ok.mp h
      exact ⟨⟨result, hItem⟩, rest, hRest⟩
    · rintro ⟨⟨result, hItem⟩, rest, hRest⟩
      exact ⟨result :: rest, mapM_cons_eq_ok.mpr ⟨result, rest, hItem, hRest, rfl⟩⟩

end Traversal

section Load

variable {σ : Type} [LinearOrder σ] (order : SqlOrder σ) (keccak256 : Bytes → B256) (cache : SqlitePeerCache)

namespace SqlitePeerCache

/-- The candidate a stored row stands for at `now`, if its columns convert and it validates. -/
def revive (ns : Namespace) (now : UInt64) (entry : Sigma fun _ : PeerKey => PeerRow) : Option PeerCandidate :=
  (CachedRow.read entry.1 entry.2).toOption.bind (cache.revalidate ns now)

theorem revive_eq (ns : Namespace) (now : UInt64) : cache.revive ns now = fun entry =>
    (CachedRow.read entry.1 entry.2).toOption.bind (cache.revalidate ns now) := rfl

def revived (table : VerifiedPeers) (ns : Namespace) (now : UInt64) : List PeerCandidate :=
  (table.select order ns).filterMap (cache.revive ns now)

theorem foldl_offerRow (ns : Namespace) (now : UInt64) (rows : List CachedRow) (store : CandidateStore) :
    rows.foldl (cache.offerRow keccak256 ns now) store =
      store.insertAll keccak256 (rows.filterMap (cache.revalidate ns now)) := by
  induction rows generalizing store with
  | nil => rfl
  | cons row rows ih =>
    rw [List.foldl_cons, ih, offerRow, List.filterMap_cons]
    cases cache.revalidate ns now row <;> rfl

variable {order keccak256 cache}

theorem load_eq_ok {table : VerifiedPeers} {ns : Namespace} {now : Option Duration}
    {candidates : List PeerCandidate} : cache.load order keccak256 table ns now = .ok candidates ↔
      ∃ time, now = some time ∧ (∀ entry ∈ table.select order ns, ∃ row, CachedRow.read entry.1 entry.2 = .ok row) ∧
        candidates = ((CandidateStore.new (cache.storeConfig ns)).insertAll keccak256
          (cache.revived order table ns time.secs)).ranked keccak256 := by
  rw [load, ← exists_mapM_eq_ok]
  constructor
  · intro h
    cases hRows : table.loadRows order ns with
    | error error =>
      rw [hRows] at h
      cases h
    | ok rows =>
      cases now with
      | none =>
        rw [hRows] at h
        cases h
      | some time =>
        rw [hRows] at h
        refine ⟨time, rfl, ⟨rows, hRows⟩, ?_⟩
        rw [revived, revive_eq, ← filterMap_of_mapM hRows, ← foldl_offerRow]
        exact (Except.ok.inj h).symm
  · rintro ⟨time, rfl, ⟨rows, hRows⟩, rfl⟩
    have hLoaded : table.loadRows order ns = .ok rows := hRows
    rw [hLoaded, revived, revive_eq, ← filterMap_of_mapM hRows, ← foldl_offerRow]
    rfl

theorem discover_eq_ok {table : VerifiedPeers} {ns : Namespace} {now : Option Duration}
    {candidates : List PeerCandidate} : cache.discover order keccak256 table ns now = .ok candidates ↔
      cache.load order keccak256 table ns now = .ok candidates := by
  rw [discover]
  cases cache.load order keccak256 table ns now with
  | error error => exact iff_of_false (fun h => by cases h) fun h => by cases h
  | ok loaded => exact ⟨fun h => congrArg _ (Except.ok.inj h), fun h => congrArg _ (Except.ok.inj h)⟩

end SqlitePeerCache

/-- A candidate whose identity, sequence and endpoints are those that the signed bytes of a row decode to,
under every check of an announcement. -/
structure Revalidated (cache : SqlitePeerCache) (now : UInt64) (row : CachedRow) (candidate : PeerCandidate) : Prop where
  type_accepted : row.recordType ∈ cache.acceptedRecordTypes
  size : 1 ≤ row.rawSignedRecord.length ∧ row.rawSignedRecord.length ≤ 4096
  live : now < row.expiresAt
  signed : ∃ codec decoded, cache.codecs.get row.recordType = some codec ∧
    codec.decodeAndVerify row.rawSignedRecord cache.dialContext = .ok decoded ∧
    decoded.recordType = row.recordType ∧ decoded.endpoints.length ≤ 16 ∧
    candidate = { decoded with
      expiresAt := row.expiresAt
      source := .localCache
      announcementBlock := some (row.blockNumber.getD 0)
      announcementLogIndex := some (row.logIndex.getD 0) }

/-- What a candidate rests on: a row of the namespace that converts and validates. -/
def Revivable (cache : SqlitePeerCache) (table : VerifiedPeers) (ns : Namespace) (now : UInt64)
    (candidate : PeerCandidate) : Prop :=
  ∃ key stored row, table.lookup key = some stored ∧ key.namespace = .blob (toBytes32 ns.bytes) ∧
    CachedRow.read key stored = .ok row ∧ Revalidated cache now row candidate

variable {cache}

theorem revalidate_eq_some {ns : Namespace} {now : UInt64} {row : CachedRow} {candidate : PeerCandidate} :
    cache.revalidate ns now row = some candidate ↔ Revalidated cache now row candidate := by
  rw [SqlitePeerCache.revalidate]
  constructor
  · intro h
    split at h
    · rename_i announced hValid
      obtain rfl := Option.some.inj h
      obtain ⟨codec, decoded, hAccepted, rfl⟩ := validateAnnouncement_eq_ok.mp hValid
      exact ⟨hAccepted.recordType_mem, ⟨List.length_pos_of_ne_nil hAccepted.nonempty, hAccepted.size_le⟩,
        hAccepted.live, codec, decoded, hAccepted.codec_eq, hAccepted.decode_eq, hAccepted.type_eq,
        hAccepted.endpoints_le, rfl⟩
    · cases h
  · rintro ⟨hType, ⟨hNonempty, hSize⟩, hLive, codec, decoded, hCodec, hDecode, hSame, hEndpoints, rfl⟩
    have hAccepted : Accepted cache.codecs (SqlitePeerCache.announcement ns row) (cache.policy ns now) codec decoded :=
      ⟨rfl, hType, hLive, List.ne_nil_of_length_pos hNonempty, hSize, hCodec, hDecode, hSame, hEndpoints⟩
    rw [validateAnnouncement_eq_ok.mpr ⟨codec, decoded, hAccepted, rfl⟩]
    rfl

theorem revive_eq_some {ns : Namespace} {now : UInt64} {entry : Sigma fun _ : PeerKey => PeerRow}
    {candidate : PeerCandidate} : cache.revive ns now entry = some candidate ↔
      ∃ row, CachedRow.read entry.1 entry.2 = .ok row ∧ Revalidated cache now row candidate := by
  rw [SqlitePeerCache.revive, Option.bind_eq_some_iff]
  cases CachedRow.read entry.1 entry.2 with
  | error error =>
    refine iff_of_false ?_ ?_
    · rintro ⟨row, h, -⟩
      cases h
    · rintro ⟨row, h, -⟩
      cases h
  | ok row =>
    simp only [Except.toOption, Option.some.injEq, Except.ok.injEq, exists_eq_left', revalidate_eq_some]

theorem mem_revived {table : VerifiedPeers} {ns : Namespace} {now : UInt64} {candidate : PeerCandidate} :
    candidate ∈ cache.revived order table ns now ↔ Revivable cache table ns now candidate := by
  rw [SqlitePeerCache.revived, List.mem_filterMap]
  constructor
  · rintro ⟨⟨key, stored⟩, hEntry, hRevive⟩
    obtain ⟨hLookup, hNamespace⟩ := (VerifiedPeers.mem_select order).mp hEntry
    obtain ⟨row, hRead, hValid⟩ := revive_eq_some.mp hRevive
    exact ⟨key, stored, row, hLookup, hNamespace, hRead, hValid⟩
  · rintro ⟨key, stored, row, hLookup, hNamespace, hRead, hValid⟩
    exact ⟨⟨key, stored⟩, (VerifiedPeers.mem_select order).mpr ⟨hLookup, hNamespace⟩,
      revive_eq_some.mpr ⟨row, hRead, hValid⟩⟩

/-- What may be said of a loaded list whatever the table holds. -/
structure Trustworthy (cache : SqlitePeerCache) (table : VerifiedPeers) (ns : Namespace) (now : UInt64)
    (candidates : List PeerCandidate) : Prop where
  signed : ∀ candidate ∈ candidates, Revivable cache table ns now candidate
  distinct : (candidates.map PeerCandidate.identityKey).Nodup
  bounded : candidates.length ≤ max 1 cache.maxCandidates
  newest : ∀ candidate ∈ candidates, ∀ other, Revivable cache table ns now other →
    other.identityKey = candidate.identityKey → other.sequence ≤ candidate.sequence

theorem trustworthy_ranked {table : VerifiedPeers} {ns : Namespace} {now : UInt64} :
    Trustworthy cache table ns now (((CandidateStore.new (cache.storeConfig ns)).insertAll keccak256
      (cache.revived order table ns now)).ranked keccak256) := by
  refine ⟨fun candidate hMem => ?_, CandidateStore.nodup_ranked keccak256 _, ?_, fun candidate hMem other hOther hSame => ?_⟩
  · exact (mem_revived order).mp (CandidateStore.greatest_of_mem_ranked hMem).1
  · have hPerm := (CandidateStore.map_identityKey_ranked_perm keccak256
      ((CandidateStore.new (cache.storeConfig ns)).insertAll keccak256 (cache.revived order table ns now))).length_eq
    have hSize := ((CandidateStore.new (cache.storeConfig ns)).insertAll keccak256
      (cache.revived order table ns now)).size_le
    rw [CandidateStore.config_insertAll] at hSize
    rw [List.length_map] at hPerm
    rw [hPerm, max_comm]
    exact hSize
  · exact UInt64.le_iff_toNat_le.mpr
      ((CandidateStore.greatest_of_mem_ranked hMem).2 other ((mem_revived order).mpr hOther) hSame)

/-- The cache soundness theorem: a tampered table bypasses no check. -/
theorem discover_trustworthy {table : VerifiedPeers} {ns : Namespace} {now : Option Duration}
    {candidates : List PeerCandidate} (h : cache.discover order keccak256 table ns now = .ok candidates) :
    (∃ time, now = some time ∧ Trustworthy cache table ns time.secs candidates) ∧
    ∀ other : VerifiedPeers,
      (∀ key : PeerKey, key.namespace = .blob (toBytes32 ns.bytes) → table.lookup key = other.lookup key) →
      cache.discover order keccak256 other ns now = .ok candidates := by
  obtain ⟨time, rfl, hRows, rfl⟩ := SqlitePeerCache.load_eq_ok.mp (SqlitePeerCache.discover_eq_ok.mp h)
  refine ⟨⟨time, rfl, trustworthy_ranked order keccak256⟩, fun other hSame => ?_⟩
  have hSelect := VerifiedPeers.select_congr order hSame
  apply SqlitePeerCache.discover_eq_ok.mpr
  refine SqlitePeerCache.load_eq_ok.mpr ⟨time, rfl, hSelect ▸ hRows, ?_⟩
  rw [SqlitePeerCache.revived, SqlitePeerCache.revived, hSelect]

variable (cache)

/-- Whether a row can be loaded when the clock shows `now`. -/
def loads (ns : Namespace) (now : Option Duration) (entry : Sigma fun _ : PeerKey => PeerRow) : Bool :=
  match now with
  | none => false
  | some time => (cache.revive ns time.secs entry).isSome

/-- The table without the rows of the namespace that fail conversion or validation. -/
def withoutBadRows (table : VerifiedPeers) (ns : Namespace) (now : Option Duration) : VerifiedPeers :=
  keep table fun key row => decide (key.namespace ≠ .blob (toBytes32 ns.bytes)) || loads cache ns now ⟨key, row⟩

def IgnoresBadRows (table : VerifiedPeers) (ns : Namespace) (now : Option Duration) : Prop :=
  ∃ candidates, cache.discover order keccak256 table ns now = .ok candidates ∧
    cache.discover order keccak256 (withoutBadRows cache table ns now) ns now = .ok candidates

variable {cache}

theorem select_withoutBadRows (table : VerifiedPeers) (ns : Namespace) (now : Option Duration) :
    (withoutBadRows cache table ns now).select order ns = (table.select order ns).filter (loads cache ns now) := by
  apply VerifiedPeers.select_eq_of_sorted order ((VerifiedPeers.nodup_select order table ns).filter _)
  · exact (sortByKey_pairwise _ _).filter _
  · intro entry
    rw [List.mem_filter, VerifiedPeers.mem_select, withoutBadRows, lookup_keep_eq_some, Bool.or_eq_true,
      decide_eq_true_eq]
    constructor
    · rintro ⟨⟨hLookup, hNamespace⟩, hLoads⟩
      exact ⟨⟨hLookup, .inr hLoads⟩, hNamespace⟩
    · rintro ⟨⟨hLookup, hOther | hLoads⟩, hNamespace⟩
      · exact absurd hNamespace hOther
      · exact ⟨⟨hLookup, hNamespace⟩, hLoads⟩

theorem revived_withoutBadRows (table : VerifiedPeers) (ns : Namespace) (time : Duration) :
    cache.revived order (withoutBadRows cache table ns (some time)) ns time.secs =
      cache.revived order table ns time.secs := by
  rw [SqlitePeerCache.revived, select_withoutBadRows, List.filterMap_filter]
  refine List.filterMap_congr fun entry _ => ?_
  cases hRevive : cache.revive ns time.secs entry <;> simp [loads, hRevive]

/-- A row that does not validate is skipped, but one that does not convert hides all others. -/
theorem ignoresBadRows_iff {table : VerifiedPeers} {ns : Namespace} {now : Option Duration} :
    IgnoresBadRows order keccak256 cache table ns now ↔ now ≠ none ∧
      ∀ key row, table.lookup key = some row → key.namespace = .blob (toBytes32 ns.bytes) → Convertible key row := by
  constructor
  · rintro ⟨candidates, hTable, -⟩
    obtain ⟨time, rfl, hRows, -⟩ := SqlitePeerCache.load_eq_ok.mp (SqlitePeerCache.discover_eq_ok.mp hTable)
    refine ⟨Option.some_ne_none time, fun key row hLookup hNamespace => ?_⟩
    exact exists_read_eq_ok.mp (hRows ⟨key, row⟩ ((VerifiedPeers.mem_select order).mpr ⟨hLookup, hNamespace⟩))
  · rintro ⟨hClock, hRows⟩
    obtain ⟨time, rfl⟩ := Option.ne_none_iff_exists'.mp hClock
    have hConvert : ∀ entry ∈ table.select order ns, ∃ row, CachedRow.read entry.1 entry.2 = .ok row := by
      intro entry hEntry
      obtain ⟨hLookup, hNamespace⟩ := (VerifiedPeers.mem_select order).mp hEntry
      exact exists_read_eq_ok.mpr (hRows entry.1 entry.2 hLookup hNamespace)
    refine ⟨_, SqlitePeerCache.discover_eq_ok.mpr (SqlitePeerCache.load_eq_ok.mpr ⟨time, rfl, hConvert, rfl⟩), ?_⟩
    apply SqlitePeerCache.discover_eq_ok.mpr
    refine SqlitePeerCache.load_eq_ok.mpr ⟨time, rfl, fun entry hEntry => ?_, ?_⟩
    · rw [select_withoutBadRows] at hEntry
      exact hConvert entry (List.mem_of_mem_filter hEntry)
    · rw [revived_withoutBadRows]

end Load

/-- The namespace of thirty-two sevens, for whose two peers `seededKeccak` is keccak256. -/
def sevensNamespace : Namespace := ⟨CandidateStore.seededConfig.samplingSeed⟩

def twoByteCache : SqlitePeerCache :=
  .opened (CodecRegistry.new.register Ethereum.twoByteCodec) [recordTypeLibp2p] .nativeServer 16

def sevensKey (recordType : Int64) (peer : UInt8) : PeerKey where
  «namespace» := .blob (toBytes32 sevensNamespace.bytes)
  recordType := .integer recordType
  peerId := .blob [peer]

def twoByteRow (raw : Bytes) (sequence expiresAt block : Int64) : PeerRow where
  sequence := .integer sequence
  rawSignedRecord := .blob raw
  expiresAt := .integer expiresAt
  announcementBlock := some (.integer block)
  announcementLogIndex := some (.integer 0)

/-- Peer 1 under its own key and, with a forged sequence, under the key of peer 9, and bytes nobody signed. -/
def forgedTable : VerifiedPeers :=
  (((∅ : VerifiedPeers).insert (sevensKey 2 1) (twoByteRow [1, 8] 8 200 12)).insert (sevensKey 2 2)
    (twoByteRow [2] 50 300 40)).insert (sevensKey 2 9) (twoByteRow [1, 7] 99 300 40)

theorem select_forgedTable : forgedTable.select storageOrder sevensNamespace =
    (forgedTable.inNamespace sevensNamespace).entries :=
  VerifiedPeers.select_eq_entries storageOrder (by decide)

def revivedPeer (peer sequence : UInt8) (expiresAt block : UInt64) : PeerCandidate where
  recordType := recordTypeLibp2p
  peerId := [peer]
  sequence := sequence.toUInt64
  endpoints := [⟨"/ip4/8.8.8.8/tcp/4001"⟩]
  rawSignedRecord := [peer, sequence]
  expiresAt := expiresAt
  source := .localCache
  announcementBlock := some block
  announcementLogIndex := some 0

theorem discover_trustworthy_forged :
    (∃ time, some (⟨100, 0⟩ : Duration) = some time ∧
      Trustworthy twoByteCache forgedTable sevensNamespace time.secs [revivedPeer 1 8 200 12]) ∧
    ∀ other : VerifiedPeers, (∀ key : PeerKey, key.namespace = .blob (toBytes32 sevensNamespace.bytes) →
        forgedTable.lookup key = other.lookup key) →
      twoByteCache.discover storageOrder CandidateStore.seededKeccak other sevensNamespace (some ⟨100, 0⟩) =
        .ok [revivedPeer 1 8 200 12] :=
  discover_trustworthy storageOrder CandidateStore.seededKeccak (by
    rw [SqlitePeerCache.discover, SqlitePeerCache.load, VerifiedPeers.loadRows, select_forgedTable]
    decide +kernel)

/-- A good row, and one whose expiry lies before 1970. -/
def negativeExpiryTable : VerifiedPeers :=
  ((∅ : VerifiedPeers).insert (sevensKey 2 1) (twoByteRow [1, 8] 8 200 12)).insert (sevensKey 2 2)
    (twoByteRow [2, 9] 9 (-1) 12)

theorem select_negativeExpiryTable : negativeExpiryTable.select storageOrder sevensNamespace =
    (negativeExpiryTable.inNamespace sevensNamespace).entries :=
  VerifiedPeers.select_eq_entries storageOrder (by decide)

/-- One row with a negative expiry fails the whole load, though the other row is good. -/
theorem negativeExpiry_hides :
    twoByteCache.discover storageOrder CandidateStore.seededKeccak negativeExpiryTable sevensNamespace (some ⟨100, 0⟩) =
      .error (.discovery "cache row contains invalid expires_at") ∧
    twoByteCache.discover storageOrder CandidateStore.seededKeccak
        (withoutBadRows twoByteCache negativeExpiryTable sevensNamespace (some ⟨100, 0⟩)) sevensNamespace
        (some ⟨100, 0⟩) = .ok [revivedPeer 1 8 200 12] ∧
    ¬ IgnoresBadRows storageOrder CandidateStore.seededKeccak twoByteCache negativeExpiryTable sevensNamespace
      (some ⟨100, 0⟩) := by
  have hFails : twoByteCache.discover storageOrder CandidateStore.seededKeccak negativeExpiryTable sevensNamespace
      (some ⟨100, 0⟩) = .error (.discovery "cache row contains invalid expires_at") := by
    rw [SqlitePeerCache.discover, SqlitePeerCache.load, VerifiedPeers.loadRows, select_negativeExpiryTable]
    decide
  refine ⟨hFails, ?_, ?_⟩
  · rw [SqlitePeerCache.discover, SqlitePeerCache.load, VerifiedPeers.loadRows, select_withoutBadRows,
      select_negativeExpiryTable]
    decide +kernel
  · rintro ⟨candidates, hLoaded, -⟩
    rw [hFails] at hLoaded
    cases hLoaded

end Resurrect.Node
