import Resurrect.Node.CacheHistory

/-! # Pruning the cache

`SqlitePeerCache::prune_expired` between the batches of a history. A row that is
deleted could not be loaded any more, so a load does not see that it is gone; and
a table that is pruned holds every row that is live in one that never is.
-/

namespace Resurrect.Node

open Resurrect.Core Bootstrap BoundedSample AssocMap Upsert Interaction

section Traversal

variable {α β ε : Type} {f : α → Except ε β} {items : List α}

/-- A traversal fails as its first item that fails. -/
theorem mapM_eq_error {error : ε} : items.mapM f = .error error ↔ ∃ before item after,
    items = before ++ item :: after ∧ (∀ other ∈ before, ∃ result, f other = .ok result) ∧ f item = .error error := by
  induction items with
  | nil =>
    constructor
    · rintro ⟨⟩
    · rintro ⟨before, item, after, hSplit, -⟩
      cases before <;> cases hSplit
  | cons first items ih =>
    cases hFirst : f first with
    | error other =>
      rw [List.mapM_cons, hFirst]
      constructor
      · intro h
        refine ⟨[], first, items, rfl, List.forall_mem_nil _, ?_⟩
        rw [hFirst]
        exact congrArg Except.error (Except.error.inj h)
      · rintro ⟨_ | ⟨head, before⟩, item, after, hSplit, hBefore, hItem⟩
        · obtain ⟨rfl, -⟩ := List.cons.inj hSplit
          exact congrArg Except.error (Except.error.inj (hFirst.symm.trans hItem))
        · obtain ⟨rfl, -⟩ := List.cons.inj hSplit
          obtain ⟨result, hResult⟩ := hBefore first List.mem_cons_self
          cases hFirst.symm.trans hResult
    | ok result =>
      have hRest : (first :: items).mapM f = .error error ↔ items.mapM f = .error error := by
        rw [List.mapM_cons, hFirst]
        cases items.mapM f with
        | error other => exact ⟨fun h => congrArg _ (Except.error.inj h), fun h => congrArg _ (Except.error.inj h)⟩
        | ok results => exact iff_of_false (fun h => by cases h) fun h => by cases h
      rw [hRest, ih]
      constructor
      · rintro ⟨before, item, after, rfl, hBefore, hItem⟩
        exact ⟨first :: before, item, after, rfl, List.forall_mem_cons.mpr ⟨⟨result, hFirst⟩, hBefore⟩, hItem⟩
      · rintro ⟨_ | ⟨head, before⟩, item, after, hSplit, hBefore, hItem⟩
        · obtain ⟨rfl, -⟩ := List.cons.inj hSplit
          cases hFirst.symm.trans hItem
        · obtain ⟨rfl, rfl⟩ := List.cons.inj hSplit
          exact ⟨before, item, after, rfl, (List.forall_mem_cons.mp hBefore).2, hItem⟩

end Traversal

section Ordered

variable {σ : Type} [LinearOrder σ] (order : SqlOrder σ)

/-- `expires_at <= ?1`. -/
def SqlOrder.Expired (time : Int64) (row : PeerRow) : Prop := order.rank row.expiresAt ≤ order.rank (.integer time)

instance decidableExpired (time : Int64) (row : PeerRow) : Decidable (order.Expired time row) :=
  inferInstanceAs (Decidable (_ ≤ _))

namespace VerifiedPeers

def deleteExpired (table : VerifiedPeers) (time : Int64) : VerifiedPeers :=
  keep table fun _ row => decide (¬ order.Expired time row)

/-- Deletes, and counts the rows that are left. -/
def prune (table : VerifiedPeers) (now : UInt64) : Except CacheError Nat × VerifiedPeers :=
  match PeerCache.toI64 now "time" with
  | .error error => (.error error, table)
  | .ok time => (.ok (table.deleteExpired order time).keys.length, table.deleteExpired order time)

def pruneExpired (table : VerifiedPeers) (now : Option Duration) : Except CacheError Nat × VerifiedPeers :=
  match PeerCache.unixTime now with
  | .error error => (.error error, table)
  | .ok now => table.prune order now

variable {order}

theorem lookup_deleteExpired {table : VerifiedPeers} {time : Int64} {key : PeerKey} {row : PeerRow} :
    (table.deleteExpired order time).lookup key = some row ↔ table.lookup key = some row ∧
      ¬ order.Expired time row := by
  rw [deleteExpired, lookup_keep_eq_some, decide_eq_true_eq]

/-- What a prune comes to: nothing, where the clock cannot be read or has no place in a column. -/
theorem pruneExpired_cases (order : SqlOrder σ) (table : VerifiedPeers) (now : Option Duration) :
    (table.pruneExpired order now).2 = table ∨ ∃ reading,
      now = some reading ∧ reading.secs.toNat < 9223372036854775808 ∧
      (table.pruneExpired order now).2 = table.deleteExpired order reading.secs.toInt64 := by
  cases now with
  | none => exact .inl rfl
  | some reading =>
    have hPrune : table.pruneExpired order (some reading) = table.prune order reading.secs := rfl
    rw [hPrune, prune, PeerCache.toI64]
    by_cases hFits : reading.secs.toNat < 9223372036854775808
    · rw [if_pos hFits]
      exact .inr ⟨reading, rfl, hFits, rfl⟩
    · rw [if_neg hFits]
      exact .inl rfl

theorem select_deleteExpired (table : VerifiedPeers) (ns : Namespace) (time : Int64) :
    (table.deleteExpired order time).select order ns =
      (table.select order ns).filter fun entry => decide (¬ order.Expired time entry.2) := by
  apply select_eq_of_sorted order ((nodup_select order table ns).filter _)
  · exact (sortByKey_pairwise _ _).filter _
  · intro entry
    rw [List.mem_filter, mem_select, lookup_deleteExpired, decide_eq_true_eq, and_right_comm]

end VerifiedPeers

variable {order}

/-- A row that is deleted at `time`, if it can be read at all, is read as expired by then. -/
theorem expiresAt_le_of_expired {time now : UInt64} (hFits : time.toNat < 9223372036854775808) (hNow : time ≤ now)
    {key : PeerKey} {row : PeerRow} (hExpired : order.Expired time.toInt64 row) {cached : CachedRow}
    (hRead : CachedRow.read key row = .ok cached) : cached.expiresAt ≤ now := by
  simp only [CachedRow.read, bind_eq_ok, getI64_eq_ok, getBytes_eq_ok, getOptionalI64_eq_ok] at hRead
  obtain ⟨_, -, _, -, expiry, hExpiry, _, -, _, -, _, -, expiresAt, hToU64, _, -, _, -, hCached⟩ := hRead
  obtain rfl := Except.ok.inj hCached
  rw [PeerCache.toU64] at hToU64
  split at hToU64
  · rename_i hNonneg
    obtain rfl := Except.ok.inj hToU64
    rw [SqlOrder.Expired, hExpiry, order.rank_integer, Int64.le_iff_toInt_le, toInt_toInt64 hFits] at hExpired
    rw [UInt64.le_iff_toNat_le] at hNow ⊢
    have hSmall : expiry.toInt.toNat < 2 ^ 64 := by omega
    rw [UInt64.toNat_ofNat_of_lt' hSmall]
    omega
  · cases hToU64

theorem revive_of_expired {cache : SqlitePeerCache} {ns : Namespace} {time now : UInt64}
    (hFits : time.toNat < 9223372036854775808) (hNow : time ≤ now) {entry : Sigma fun _ : PeerKey => PeerRow}
    (hExpired : order.Expired time.toInt64 entry.2) : cache.revive ns now entry = none := by
  rw [Option.eq_none_iff_forall_not_mem]
  intro candidate hCandidate
  obtain ⟨cached, hRead, hValid⟩ := revive_eq_some.mp hCandidate
  exact absurd (expiresAt_le_of_expired hFits hNow hExpired hRead) (UInt64.not_le.mpr hValid.live)

theorem revived_deleteExpired {cache : SqlitePeerCache} (table : VerifiedPeers) {ns : Namespace} {time now : UInt64}
    (hFits : time.toNat < 9223372036854775808) (hNow : time ≤ now) :
    cache.revived order (table.deleteExpired order time.toInt64) ns now = cache.revived order table ns now := by
  rw [SqlitePeerCache.revived, VerifiedPeers.select_deleteExpired, List.filterMap_filter]
  refine List.filterMap_congr fun entry _ => ?_
  by_cases hExpired : order.Expired time.toInt64 entry.2
  · simp [hExpired, revive_of_expired hFits hNow hExpired]
  · simp [hExpired]

/-- The row that ends a load: the first, in the order of the SELECT, that cannot be converted. -/
def EndsLoad (order : SqlOrder σ) (table : VerifiedPeers) (ns : Namespace) (entry : Sigma fun _ : PeerKey => PeerRow) :
    Prop :=
  ∃ before after, table.select order ns = before ++ entry :: after ∧
    (∀ other ∈ before, Convertible other.1 other.2) ∧ ¬ Convertible entry.1 entry.2

/-- Pruning is invisible to a load: what it returns stays the same, and so does its failure, unless a row that is
pruned was the one that could not be converted. -/
theorem discover_pruned (order : SqlOrder σ) (keccak256 : Bytes → B256) (cache : SqlitePeerCache)
    (table : VerifiedPeers) (ns : Namespace) {reading : Option Duration} {now : Duration}
    (hClock : ∀ time ∈ reading, time.secs ≤ now.secs) :
    (∀ candidates, cache.discover order keccak256 table ns (some now) = .ok candidates →
      cache.discover order keccak256 (table.pruneExpired order reading).2 ns (some now) = .ok candidates) ∧
    ((∀ entry, EndsLoad order table ns entry →
        (table.pruneExpired order reading).2.lookup entry.1 = some entry.2) →
      cache.discover order keccak256 (table.pruneExpired order reading).2 ns (some now) =
        cache.discover order keccak256 table ns (some now)) := by
  obtain hSame | ⟨time, rfl, hFits, hTable⟩ := VerifiedPeers.pruneExpired_cases order table reading
  · rw [hSame]
    exact ⟨fun _ h => h, fun _ => rfl⟩
  have hNow := hClock time rfl
  have hKept : ∀ candidates, cache.discover order keccak256 table ns (some now) = .ok candidates →
      cache.discover order keccak256 (table.deleteExpired order time.secs.toInt64) ns (some now) = .ok candidates := by
    intro candidates h
    obtain ⟨_, hTime, hRows, rfl⟩ := SqlitePeerCache.load_eq_ok.mp (SqlitePeerCache.discover_eq_ok.mp h)
    obtain rfl := Option.some.inj hTime
    apply SqlitePeerCache.discover_eq_ok.mpr
    refine SqlitePeerCache.load_eq_ok.mpr ⟨now, rfl, fun entry hEntry => ?_, ?_⟩
    · rw [VerifiedPeers.select_deleteExpired] at hEntry
      exact hRows entry (List.mem_of_mem_filter hEntry)
    · rw [revived_deleteExpired table hFits hNow]
  rw [hTable]
  refine ⟨hKept, fun hEnds => ?_⟩
  cases hLoad : cache.discover order keccak256 table ns (some now) with
  | ok candidates => exact hKept candidates hLoad
  | error error =>
    cases hRows : table.loadRows order ns with
    | ok rows =>
      rw [SqlitePeerCache.discover, SqlitePeerCache.load, hRows] at hLoad
      cases hLoad
    | error failure =>
      have hPruned : (table.deleteExpired order time.secs.toInt64).loadRows order ns = .error failure := by
        obtain ⟨before, entry, after, hSplit, hBefore, hEntry⟩ := mapM_eq_error.mp hRows
        have hLast : ¬ Convertible entry.1 entry.2 := by
          intro hConvertible
          obtain ⟨cached, hRead⟩ := exists_read_eq_ok.mpr hConvertible
          cases hEntry.symm.trans hRead
        have hLeft := hEnds entry ⟨before, after, hSplit, fun other hOther =>
          exists_read_eq_ok.mp (hBefore other hOther), hLast⟩
        have hLive := decide_eq_true (VerifiedPeers.lookup_deleteExpired.mp hLeft).2
        apply mapM_eq_error.mpr
        rw [VerifiedPeers.select_deleteExpired, hSplit, List.filter_append, List.filter_cons_of_pos (by exact hLive)]
        exact ⟨_, entry, _, rfl, fun other hOther => hBefore other (List.mem_of_mem_filter hOther), hEntry⟩
      rw [SqlitePeerCache.discover, SqlitePeerCache.load, hRows] at hLoad
      rw [SqlitePeerCache.discover, SqlitePeerCache.load, hPruned]
      exact hLoad

/-- Pruned at 250, the table that someone else wrote to has lost the record of sequence 8 and still yields the other. -/
theorem discover_pruned_forged : twoByteCache.discover storageOrder CandidateStore.seededKeccak
    (forgedTable.pruneExpired storageOrder (some ⟨250, 0⟩)).2 sevensNamespace (some ⟨250, 0⟩) =
      .ok [revivedPeer 1 7 300 40] :=
  (discover_pruned storageOrder CandidateStore.seededKeccak twoByteCache forgedTable sevensNamespace
    (fun time hTime => UInt64.le_of_eq (congrArg Duration.secs (Option.some.inj hTime).symm))).1 _ (by
      rw [SqlitePeerCache.discover, SqlitePeerCache.load, VerifiedPeers.loadRows, select_forgedTable]
      decide +kernel)

/-- What happens to the table between two loads. -/
inductive CacheStep where
  | store («namespace» : Namespace) (candidates : List PeerCandidate)
  | prune (now : Option Duration)

def CacheStep.isStore : CacheStep → Bool
  | .store .. => true
  | .prune _ => false

section Histories

variable (order)

def CacheStep.apply (table : VerifiedPeers) : CacheStep → VerifiedPeers
  | .store ns candidates => (table.store order ns candidates).2
  | .prune now => (table.pruneExpired order now).2

def applySteps (table : VerifiedPeers) (steps : List CacheStep) : VerifiedPeers :=
  steps.foldl (CacheStep.apply order) table

/-- The table of a process that never prunes. -/
def neverPruned (table : VerifiedPeers) (steps : List CacheStep) : VerifiedPeers :=
  applySteps order table (steps.filter CacheStep.isStore)

/-- A row that some prune of the history deletes. -/
def PrunedBy (steps : List CacheStep) (row : PeerRow) : Prop :=
  ∃ reading : Duration, CacheStep.prune (some reading) ∈ steps ∧ reading.secs.toNat < 9223372036854775808 ∧
    order.Expired reading.secs.toInt64 row

variable {order}

theorem applySteps_append (table : VerifiedPeers) (steps : List CacheStep) (last : CacheStep) :
    applySteps order table (steps ++ [last]) = last.apply order (applySteps order table steps) :=
  List.foldl_append

theorem neverPruned_append (table : VerifiedPeers) (steps : List CacheStep) (last : CacheStep) :
    neverPruned order table (steps ++ [last]) =
      if last.isStore then last.apply order (neverPruned order table steps) else neverPruned order table steps := by
  rw [neverPruned, List.filter_append]
  cases last with
  | store ns candidates => exact applySteps_append table _ _
  | prune now => exact congrArg (applySteps order table) (List.append_nil _)

/-- A row as some store writes it under a key. -/
def Written (key : PeerKey) (row : PeerRow) : Prop :=
  ∃ ns candidate, Fits candidate ∧ PeerKey.row ns candidate = key ∧ columns candidate = row

theorem exists_read_of_written {key : PeerKey} {row : PeerRow} (h : Written key row) :
    ∃ cached, CachedRow.read key row = .ok cached := by
  obtain ⟨ns, candidate, hFits, rfl, rfl⟩ := h
  exact ⟨_, read_columns hFits⟩

theorem trails_store {gone : PeerRow → Prop} {table full : VerifiedPeers} {key : PeerKey}
    (h : Trails (rowScore order) (Written key) gone (table.lookup key) (full.lookup key)) (ns : Namespace)
    (candidates : List PeerCandidate) : Trails (rowScore order) (Written key) gone
      ((table.store order ns candidates).2.lookup key) ((full.store order ns candidates).2.lookup key) := by
  by_cases hFits : ∀ candidate ∈ candidates, Fits candidate
  · rw [store_of_fits order table hFits, store_of_fits order full hFits, lookup_upsertAll, lookup_upsertAll,
      replaceRow_eq_guarded]
    refine h.replaceAll (fun _ => rfl) fun candidate hMem => ?_
    obtain ⟨hOffered, hKey⟩ := (mem_own _).mp hMem
    exact ⟨ns, candidate, hFits candidate hOffered, hKey, rfl⟩
  · rwa [store_of_not_fits order table hFits, store_of_not_fits order full hFits]

theorem trails_prune {gone : PeerRow → Prop} {table full : VerifiedPeers} {key : PeerKey}
    (h : Trails (rowScore order) (Written key) gone (table.lookup key) (full.lookup key)) {now : Option Duration}
    (hGone : ∀ reading ∈ now, reading.secs.toNat < 9223372036854775808 → ∀ row,
      order.Expired reading.secs.toInt64 row → gone row) :
    Trails (rowScore order) (Written key) gone ((table.pruneExpired order now).2.lookup key) (full.lookup key) := by
  obtain hSame | ⟨reading, rfl, hFits, hTable⟩ := VerifiedPeers.pruneExpired_cases order table now
  · rwa [hSame]
  rw [hTable]
  apply h.drop
  cases hRow : table.lookup key with
  | none =>
    refine .inl (Option.eq_none_iff_forall_not_mem.mpr fun row hKept => ?_)
    rw [(VerifiedPeers.lookup_deleteExpired.mp hKept).1] at hRow
    cases hRow
  | some row =>
    by_cases hExpired : order.Expired reading.secs.toInt64 row
    · refine .inr ⟨Option.eq_none_iff_forall_not_mem.mpr fun other hKept => ?_, fun value hValue => ?_⟩
      · obtain ⟨hOther, hLive⟩ := VerifiedPeers.lookup_deleteExpired.mp hKept
        rw [hRow] at hOther
        obtain rfl := Option.some.inj hOther
        exact hLive hExpired
      · obtain rfl := Option.some.inj hValue
        exact hGone reading rfl hFits row hExpired
    · exact .inl (VerifiedPeers.lookup_deleteExpired.mpr ⟨hRow, hExpired⟩)

/-- Row by row, a table that is pruned trails one that never is. -/
theorem trails_applySteps (order : SqlOrder σ) (table : VerifiedPeers) (steps : List CacheStep) (key : PeerKey) :
    Trails (rowScore order) (Written key) (PrunedBy order steps) ((applySteps order table steps).lookup key)
      ((neverPruned order table steps).lookup key) := by
  induction steps using List.reverseRecOn with
  | nil => exact .same _
  | append_singleton steps last ih =>
    have hBefore : Trails (rowScore order) (Written key) (PrunedBy order (steps ++ [last]))
        ((applySteps order table steps).lookup key) ((neverPruned order table steps).lookup key) := by
      apply ih.mono
      rintro row ⟨reading, hMem, hFits, hExpired⟩
      exact ⟨reading, List.mem_append_left _ hMem, hFits, hExpired⟩
    rw [applySteps_append, neverPruned_append]
    cases last with
    | store ns candidates => exact trails_store hBefore ns candidates
    | prune now =>
      apply trails_prune hBefore
      intro reading hReading hFits row hExpired
      obtain rfl := Option.mem_def.mp hReading
      exact ⟨reading, by simp, hFits, hExpired⟩

end Histories

section Live

variable {steps : List CacheStep} {now : UInt64} {cache : SqlitePeerCache} {table : VerifiedPeers} {ns : Namespace}

theorem expiresAt_le_of_prunedBy (hClock : ∀ reading : Duration, .prune (some reading) ∈ steps → reading.secs ≤ now)
    {key : PeerKey} {row : PeerRow} (h : PrunedBy order steps row) {cached : CachedRow}
    (hRead : CachedRow.read key row = .ok cached) : cached.expiresAt ≤ now := by
  obtain ⟨reading, hMem, hFits, hExpired⟩ := h
  exact expiresAt_le_of_expired hFits (hClock reading hMem) hExpired hRead

theorem revivable_applySteps (hClock : ∀ reading : Duration, .prune (some reading) ∈ steps → reading.secs ≤ now)
    {candidate : PeerCandidate} (h : Revivable cache (neverPruned order table steps) ns now candidate) :
    Revivable cache (applySteps order table steps) ns now candidate := by
  obtain ⟨key, stored, row, hLookup, hNamespace, hRead, hValid⟩ := h
  have hTrails := trails_applySteps order table steps key
  rw [hLookup] at hTrails
  generalize hHeld : (applySteps order table steps).lookup key = held at hTrails
  cases hTrails with
  | same => exact ⟨key, stored, row, hHeld, hNamespace, hRead, hValid⟩
  | behind hGone _ =>
    exact absurd (expiresAt_le_of_prunedBy hClock hGone hRead) (UInt64.not_le.mpr hValid.live)

/-- Where a load converts every row that is never pruned, it converts those that are left as well. -/
theorem reads_applySteps
    (hFull : ∀ entry ∈ (neverPruned order table steps).select order ns,
      ∃ row, CachedRow.read entry.1 entry.2 = .ok row) :
    ∀ entry ∈ (applySteps order table steps).select order ns, ∃ row, CachedRow.read entry.1 entry.2 = .ok row := by
  intro entry hEntry
  obtain ⟨hLookup, hNamespace⟩ := (VerifiedPeers.mem_select order).mp hEntry
  have hTrails := trails_applySteps order table steps entry.1
  rw [hLookup] at hTrails
  generalize hOther : (neverPruned order table steps).lookup entry.1 = full at hTrails
  cases hTrails with
  | same => exact hFull entry ((VerifiedPeers.mem_select order).mpr ⟨hOther, hNamespace⟩)
  | behind _ hLess => exact exists_read_of_written (hLess entry.2 rfl).1

end Live

/-- Pruning loses no live peer: over any history of batches and prunes, from any table, whatever a cache that never
prunes would return is in the pruned one too, and what the other discovers is discovered there while it has room for
its rows; and a row that only the pruned one holds stands, in the other, behind a newer one that has expired. -/
theorem pruning_loses_nothing (order : SqlOrder σ) (keccak256 : Bytes → B256) (cache : SqlitePeerCache)
    (table : VerifiedPeers) (steps : List CacheStep) (ns : Namespace) {now : Duration}
    (hClock : ∀ reading : Duration, .prune (some reading) ∈ steps → reading.secs ≤ now.secs) :
    (∀ candidate, Revivable cache (neverPruned order table steps) ns now.secs candidate →
      Revivable cache (applySteps order table steps) ns now.secs candidate) ∧
    (∀ identity, Discovers order keccak256 cache (neverPruned order table steps) ns now identity →
      ((applySteps order table steps).inNamespace ns).keys.length ≤ cache.maxCandidates →
      Discovers order keccak256 cache (applySteps order table steps) ns now identity) ∧
    ∀ key row, (applySteps order table steps).lookup key = some row →
      (neverPruned order table steps).lookup key = some row ∨
        ∃ newer, (neverPruned order table steps).lookup key = some newer ∧ rowScore order row < rowScore order newer ∧
          ∀ cached, CachedRow.read key newer = .ok cached → cached.expiresAt ≤ now.secs := by
  refine ⟨fun candidate => revivable_applySteps hClock, fun identity hFull hRoom => ?_, fun key row hRow => ?_⟩
  · obtain ⟨candidates, hDiscover, candidate, hMem, hIdentity⟩ := hFull
    obtain ⟨_, -, hRows, -⟩ := SqlitePeerCache.load_eq_ok.mp (SqlitePeerCache.discover_eq_ok.mp hDiscover)
    obtain ⟨⟨_, hTime, hTrust⟩, -⟩ := discover_trustworthy order keccak256 hDiscover
    obtain rfl := Option.some.inj hTime
    exact (discovers_iff_revivable order (reads_applySteps hRows) hRoom).mpr
      ⟨candidate, revivable_applySteps hClock (hTrust.signed candidate hMem), hIdentity⟩
  · have hTrails := trails_applySteps order table steps key
    rw [hRow] at hTrails
    generalize hFull : (neverPruned order table steps).lookup key = full at hTrails
    cases hTrails with
    | same => exact .inl rfl
    | @behind newer hGone hLess =>
      exact .inr ⟨newer, rfl, (hLess row rfl).2, fun cached => expiresAt_le_of_prunedBy hClock hGone⟩

end Ordered

/-- The short announcement of a record is pruned once it has expired, before the long one is offered again. -/
def prunedSteps : List CacheStep :=
  [.store sevensNamespace [twoByteOffer 1 8 200 20 0], .prune (some ⟨250, 0⟩),
    .store sevensNamespace [twoByteOffer 1 8 1000 10 0]]

theorem pruning_loses_nothing_replayed :
    (applySteps storageOrder ∅ prunedSteps).lookup (.of sevensNamespace recordTypeLibp2p [1]) =
      some (columns (twoByteOffer 1 8 1000 10 0)) ∧
    ∃ newer, (neverPruned storageOrder ∅ prunedSteps).lookup (.of sevensNamespace recordTypeLibp2p [1]) = some newer ∧
      ∀ cached, CachedRow.read (.of sevensNamespace recordTypeLibp2p [1]) newer = .ok cached →
        cached.expiresAt ≤ 250 := by
  have hClock : ∀ reading : Duration, CacheStep.prune (some reading) ∈ prunedSteps →
      reading.secs ≤ (⟨250, 0⟩ : Duration).secs := by
    intro reading hMem
    simp only [prunedSteps, List.mem_cons, CacheStep.prune.injEq, Option.some.injEq, reduceCtorEq, List.not_mem_nil,
      or_false, false_or] at hMem
    rw [hMem]
    exact UInt64.le_refl _
  have hRow : (applySteps storageOrder ∅ prunedSteps).lookup (.of sevensNamespace recordTypeLibp2p [1]) =
      some (columns (twoByteOffer 1 8 1000 10 0)) := by decide
  obtain hSame | ⟨newer, hNewer, -, hGone⟩ := (pruning_loses_nothing storageOrder CandidateStore.seededKeccak
    twoByteCache ∅ prunedSteps sevensNamespace hClock).2.2 _ _ hRow
  · exact absurd hSame (by decide)
  · exact ⟨hRow, newer, hNewer, hGone⟩

end Resurrect.Node
