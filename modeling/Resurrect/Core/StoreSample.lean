import Resurrect.Core.CandidateStore

/-! # The candidate store is a bounded sample

Each branch of `insert` follows one rule of `IsSample`, so after any sequence of
inserts the store holds the identities of least score, each under its freshest
record, whatever the order of the offers.
-/

namespace Resurrect.Core.CandidateStore

open BoundedSample AssocMap

variable (keccak256 : Bytes → B256)

/-- The sample a store stands for, under the scores of its own seed. -/
def Samples (self : CandidateStore) (offers : List PeerCandidate) : Prop :=
  IsSample PeerCandidate.identityKey PeerCandidate.freshness self.config.maxCandidates
    (self.score keccak256) offers self.candidates.keys.toFinset fun k => self.candidates.lookup k

theorem samples_new (config : CandidateStoreConfig) : (new config).Samples keccak256 [] := by
  have hLookup : (fun k : Bytes => (new config).candidates.lookup k) = fun _ => none := by
    funext k
    exact AList.lookup_empty k
  rw [Samples, hLookup]
  exact IsSample.empty

theorem samples_put {self : CandidateStore} {offers : List PeerCandidate} {candidate : PeerCandidate}
    {h : candidate.identityKey ∈ self.candidates.keys ∨
      self.candidates.keys.length < self.config.maxCandidates} :
    (self.put candidate h).Samples keccak256 offers ↔
      IsSample PeerCandidate.identityKey PeerCandidate.freshness self.config.maxCandidates
        (self.score keccak256) offers (Insert.insert candidate.identityKey self.candidates.keys.toFinset)
        (Function.update (fun k => self.candidates.lookup k) candidate.identityKey (some candidate)) := by
  rw [← keys_insert_toFinset _ _ candidate, ← lookup_insert_eq_update]
  rfl

theorem samples_insert {self : CandidateStore} {offers : List PeerCandidate}
    (h : self.Samples keccak256 offers) (candidate : PeerCandidate) :
    (self.insert keccak256 candidate).2.Samples keccak256 (offers ++ [candidate]) := by
  rw [insert]
  split
  · rename_i existing hExisting
    have hKey : candidate.identityKey ∈ self.candidates.keys.toFinset :=
      List.mem_toFinset.mpr (mem_keys_of_lookup hExisting)
    split
    · rename_i hFresher
      rw [samples_put, Finset.insert_eq_of_mem hKey]
      exact h.refresh hKey hExisting (compareFreshness_eq_gt.mp hFresher)
    · rename_i hFresher
      exact h.stale hKey hExisting (not_lt.mp (mt compareFreshness_eq_gt.mpr hFresher))
  · rename_i hAbsent
    have hKey : candidate.identityKey ∉ self.candidates.keys.toFinset := by
      rw [List.mem_toFinset, ← AList.mem_keys]
      exact AList.lookup_eq_none.mp hAbsent
    split
    · rename_i hRoom
      rw [samples_put]
      exact h.accept hKey (by rwa [card_keys])
    · rename_i hRoom
      have hFull : self.candidates.keys.toFinset.card = self.config.maxCandidates := by
        rw [card_keys]
        exact le_antisymm self.size_le (not_lt.mp hRoom)
      split
      · rename_i hNone
        rw [maxByKey_eq_none.mp hNone] at hRoom
        exact absurd self.cap_pos hRoom
      · rename_i worst hWorst
        obtain ⟨hMem, hMax⟩ := maxByKey_spec hWorst
        simp only [← List.mem_toFinset] at hMem hMax
        split
        · rename_i hBetter
          rw [samples_put]
          change IsSample _ _ _ _ _ (Insert.insert _ (self.candidates.erase worst).keys.toFinset)
            (Function.update (fun k => (self.candidates.erase worst).lookup k) _ _)
          rw [keys_erase_toFinset, lookup_erase_eq_update]
          exact h.evict hKey hFull hMem hMax hBetter
        · rename_i hBetter
          exact h.reject hKey hFull fun j hj => (hMax j hj).trans (not_lt.mp hBetter)

theorem config_insert (self : CandidateStore) (candidate : PeerCandidate) :
    (self.insert keccak256 candidate).2.config = self.config := by
  rw [insert]
  split
  · split <;> rfl
  · split
    · rfl
    · split
      · rfl
      · split <;> rfl

theorem config_insertAll (self : CandidateStore) (offers : List PeerCandidate) :
    (self.insertAll keccak256 offers).config = self.config := by
  induction offers generalizing self with
  | nil => rfl
  | cons candidate offers ih => exact (ih _).trans (config_insert keccak256 self candidate)

theorem samples_insertAll (config : CandidateStoreConfig) (offers : List PeerCandidate) :
    ((new config).insertAll keccak256 offers).Samples keccak256 offers := by
  induction offers using List.reverseRecOn with
  | nil => exact samples_new keccak256 config
  | append_singleton offers candidate ih =>
    rw [insertAll_append]
    exact samples_insert keccak256 ih candidate

theorem score_insertAll (config : CandidateStoreConfig) (offers : List PeerCandidate) (identity : Bytes) :
    ((new config).insertAll keccak256 offers).score keccak256 identity =
      (new config).score keccak256 identity := by
  rw [score, config_insertAll, score]

theorem entries_of_lookup {self : CandidateStore} {identity : Bytes} {candidate : PeerCandidate} :
    (⟨identity, candidate⟩ : Sigma fun _ : Bytes => PeerCandidate) ∈ self.candidates.entries ↔
      self.candidates.lookup identity = some candidate :=
  AList.mem_lookup_iff.symm

theorem mem_ranked {self : CandidateStore} {candidate : PeerCandidate} :
    candidate ∈ self.ranked keccak256 ↔
      self.candidates.lookup candidate.identityKey = some candidate := by
  rw [ranked, List.mem_map]
  constructor
  · rintro ⟨⟨identity, other⟩, hEntry, rfl⟩
    have hLookup := entries_of_lookup.mp ((sortByKey_perm _ _).mem_iff.mp hEntry)
    rw [← self.keyed identity other hLookup] at hLookup
    exact hLookup
  · intro hLookup
    exact ⟨⟨_, candidate⟩, (sortByKey_perm _ _).mem_iff.mpr (entries_of_lookup.mpr hLookup), rfl⟩

theorem identityKey_of_mem_entries {self : CandidateStore}
    {entry : Sigma fun _ : Bytes => PeerCandidate} (h : entry ∈ self.candidates.entries) :
    entry.2.identityKey = entry.1 := self.keyed entry.1 entry.2 (entries_of_lookup.mp h)

theorem map_identityKey_ranked (self : CandidateStore) :
    (self.ranked keccak256).map PeerCandidate.identityKey =
      (sortByKey (fun entry => self.score keccak256 entry.1) self.candidates.entries).map (·.1) := by
  rw [ranked, List.map_map]
  apply List.map_congr_left
  intro entry hEntry
  exact identityKey_of_mem_entries ((sortByKey_perm _ _).mem_iff.mp hEntry)

theorem map_identityKey_ranked_perm (self : CandidateStore) :
    ((self.ranked keccak256).map PeerCandidate.identityKey).Perm self.candidates.keys := by
  rw [map_identityKey_ranked]
  exact (sortByKey_perm _ _).map _

theorem ranked_pairwise_le (self : CandidateStore) :
    (self.ranked keccak256).Pairwise fun a b =>
      self.score keccak256 a.identityKey ≤ self.score keccak256 b.identityKey := by
  have h : ((self.ranked keccak256).map PeerCandidate.identityKey).Pairwise fun a b =>
      self.score keccak256 a ≤ self.score keccak256 b := by
    rw [map_identityKey_ranked, List.pairwise_map]
    exact sortByKey_pairwise _ _
  rwa [List.pairwise_map] at h

theorem nodup_ranked (self : CandidateStore) :
    ((self.ranked keccak256).map PeerCandidate.identityKey).Nodup :=
  (map_identityKey_ranked_perm keccak256 self).nodup_iff.mpr self.candidates.keys_nodup

theorem ranked_eq_of_lookup {self other : CandidateStore}
    (hLookup : ∀ identity, self.candidates.lookup identity = other.candidates.lookup identity)
    (hConfig : self.config = other.config)
    (hInj : ∀ a ∈ self.candidates.keys, ∀ b ∈ self.candidates.keys,
      self.score keccak256 a = self.score keccak256 b → a = b) :
    self.ranked keccak256 = other.ranked keccak256 := by
  have hEntries : self.candidates.entries.Perm other.candidates.entries := by
    refine (List.perm_ext_iff_of_nodup self.candidates.nodupKeys.nodup
      other.candidates.nodupKeys.nodup).mpr ?_
    rintro ⟨identity, candidate⟩
    rw [entries_of_lookup, entries_of_lookup, hLookup]
  have hScore : (fun entry : Sigma fun _ : Bytes => PeerCandidate => other.score keccak256 entry.1) =
      fun entry => self.score keccak256 entry.1 := by
    funext entry
    rw [score, score, hConfig]
  rw [ranked, ranked, hScore, sortByKey_eq_of_perm hEntries]
  rintro ⟨a, left⟩ ha ⟨b, right⟩ hb hab
  obtain rfl := hInj a (List.mem_map_of_mem ha) b (List.mem_map_of_mem hb) hab
  have hSome : some left = some right :=
    (entries_of_lookup.mp ha).symm.trans (entries_of_lookup.mp hb)
  rw [Option.some.inj hSome]

/-- What a store retains of the offers made to it: the identities of least score, each
under its freshest record (the earliest on a full tie), ranked by score. -/
structure FreshestSample (config : CandidateStoreConfig) (offers : List PeerCandidate)
    (store : CandidateStore) : Prop where
  offered : ∀ identity ∈ store.candidates.keys, ∃ offer ∈ offers, offer.identityKey = identity
  size : store.candidates.keys.length =
    min (max 1 config.maxCandidates) (offers.map PeerCandidate.identityKey).dedup.length
  smallest : ∀ identity ∈ store.candidates.keys, ∀ offer ∈ offers,
    offer.identityKey ∉ store.candidates.keys →
      (new config).score keccak256 identity < (new config).score keccak256 offer.identityKey
  freshest : ∀ identity ∈ store.candidates.keys, ∃ item before after,
    store.candidates.lookup identity = some item ∧ offers = before ++ item :: after ∧
    item.identityKey = identity ∧
    (∀ a ∈ before, a.identityKey = identity → a.freshness < item.freshness) ∧
    ∀ a ∈ after, a.identityKey = identity → a.freshness ≤ item.freshness
  ranked_keys : ((store.ranked keccak256).map PeerCandidate.identityKey).Perm store.candidates.keys
  ranked_held : ∀ candidate ∈ store.ranked keccak256,
    store.candidates.lookup candidate.identityKey = some candidate
  ranked_increasing : (store.ranked keccak256).Pairwise fun a b =>
    (new config).score keccak256 a.identityKey < (new config).score keccak256 b.identityKey

variable {keccak256}

theorem freshest_of_samples {self : CandidateStore} {offers : List PeerCandidate}
    (h : self.Samples keccak256 offers) {identity : Bytes} (hKey : identity ∈ self.candidates.keys) :
    ∃ item before after, self.candidates.lookup identity = some item ∧
      offers = before ++ item :: after ∧ item.identityKey = identity ∧
      (∀ a ∈ before, a.identityKey = identity → a.freshness < item.freshness) ∧
      ∀ a ∈ after, a.identityKey = identity → a.freshness ≤ item.freshness := by
  obtain ⟨item, hItem⟩ := h.exists_get (List.mem_toFinset.mpr hKey)
  obtain ⟨before, after, hOffers, hIdent, hBefore, hAfter⟩ := h.get_isFreshest hItem
  exact ⟨item, before, after, hItem, hOffers, hIdent, hBefore, hAfter⟩

theorem sequence_le_of_freshness {a b : PeerCandidate} (h : a.freshness ≤ b.freshness) :
    a.sequence.toNat ≤ b.sequence.toNat := by
  obtain hLt | ⟨hEq, -⟩ := Prod.Lex.le_iff.mp h
  · exact hLt.le
  · exact hEq.le

theorem greatest_of_mem_ranked {config : CandidateStoreConfig} {offers : List PeerCandidate}
    {candidate : PeerCandidate} (h : candidate ∈ ((new config).insertAll keccak256 offers).ranked keccak256) :
    candidate ∈ offers ∧ ∀ offer ∈ offers, offer.identityKey = candidate.identityKey →
      offer.sequence.toNat ≤ candidate.sequence.toNat := by
  have hLookup := (mem_ranked keccak256).mp h
  obtain ⟨item, before, after, hItem, hOffers, -, hBefore, hAfter⟩ :=
    freshest_of_samples (samples_insertAll keccak256 config offers) (mem_keys_of_lookup hLookup)
  obtain rfl := Option.some.inj (hLookup.symm.trans hItem)
  refine ⟨by simp [hOffers], fun offer hMem hIdent => ?_⟩
  rw [hOffers, List.mem_append, List.mem_cons] at hMem
  obtain hMem | rfl | hMem := hMem
  · exact sequence_le_of_freshness (hBefore offer hMem hIdent).le
  · exact le_rfl
  · exact sequence_le_of_freshness (hAfter offer hMem hIdent)

/-- An identity is drawn when it is offered and fewer than the cap are ahead of it. -/
def Drawn (keccak256 : Bytes → B256) (config : CandidateStoreConfig) (offers : List PeerCandidate)
    (identity : Bytes) : Prop :=
  (∃ offer ∈ offers, offer.identityKey = identity) ∧
    (ahead PeerCandidate.identityKey ((new config).score keccak256) offers identity).card <
      max 1 config.maxCandidates

theorem samples_new_insertAll (config : CandidateStoreConfig) (offers : List PeerCandidate) :
    IsSample PeerCandidate.identityKey PeerCandidate.freshness (max 1 config.maxCandidates)
      ((new config).score keccak256) offers ((new config).insertAll keccak256 offers).candidates.keys.toFinset
      fun k => ((new config).insertAll keccak256 offers).candidates.lookup k := by
  have hSample := samples_insertAll keccak256 config offers
  have hScore : ((new config).insertAll keccak256 offers).score keccak256 = (new config).score keccak256 := by
    funext identity
    rw [score_insertAll]
  rw [Samples, hScore, config_insertAll] at hSample
  rw [max_comm]
  exact hSample

theorem drawn_of_mem_ranked {config : CandidateStoreConfig} {offers : List PeerCandidate}
    {candidate : PeerCandidate} (h : candidate ∈ ((new config).insertAll keccak256 offers).ranked keccak256) :
    Drawn keccak256 config offers candidate.identityKey := by
  have hKey := List.mem_toFinset.mpr (mem_keys_of_lookup ((mem_ranked keccak256).mp h))
  exact ⟨⟨candidate, (greatest_of_mem_ranked h).1, rfl⟩, (samples_new_insertAll config offers).card_ahead_lt hKey⟩

theorem exists_ranked_of_key {self : CandidateStore} {offers : List PeerCandidate} {cap : Nat} {score : Bytes → B256}
    (hSample : IsSample PeerCandidate.identityKey PeerCandidate.freshness cap score offers
      self.candidates.keys.toFinset fun k => self.candidates.lookup k) {identity : Bytes}
    (hKey : identity ∈ self.candidates.keys.toFinset) :
    ∃ candidate ∈ self.ranked keccak256, candidate.identityKey = identity := by
  obtain ⟨candidate, hLookup⟩ := hSample.exists_get hKey
  obtain rfl := self.keyed identity candidate hLookup
  exact ⟨candidate, (mem_ranked keccak256).mpr hLookup, rfl⟩

theorem exists_ranked_of_few {config : CandidateStoreConfig} {offers : List PeerCandidate}
    (hFew : (offers.map PeerCandidate.identityKey).dedup.length ≤ max 1 config.maxCandidates)
    {offer : PeerCandidate} (hOffer : offer ∈ offers) :
    ∃ candidate ∈ ((new config).insertAll keccak256 offers).ranked keccak256,
      candidate.identityKey = offer.identityKey := by
  have hSample := @samples_new_insertAll keccak256 config offers
  have hCard : (identities PeerCandidate.identityKey offers).card ≤ max 1 config.maxCandidates := by
    rwa [identities, List.card_toFinset]
  apply exists_ranked_of_key hSample
  rw [hSample.keys_eq_of_card_le hCard]
  exact mem_identities.mpr ⟨offer, hOffer, rfl⟩

theorem filter_eq_singleton {α β : Type} [DecidableEq β] {f : α → β} {l : List α} (hNodup : (l.map f).Nodup)
    {a : α} (h : a ∈ l) : l.filter (fun b => f b = f a) = [a] := by
  induction l with
  | nil => cases h
  | cons b rest ih =>
    obtain ⟨hHead, hRest⟩ := List.nodup_cons.mp hNodup
    obtain rfl | hMem := List.mem_cons.mp h
    · rw [List.filter_cons_of_pos (by simp)]
      refine congrArg _ (List.filter_eq_nil_iff.mpr fun b hb hEq => hHead ?_)
      rw [← of_decide_eq_true hEq]
      exact List.mem_map_of_mem hb
    · have hNe : f b ≠ f a := fun hEq => hHead (hEq ▸ List.mem_map_of_mem hMem)
      rw [List.filter_cons_of_neg (by simpa using hNe)]
      exact ih hRest hMem

theorem filter_ranked_eq {self : CandidateStore} {candidate : PeerCandidate}
    (h : candidate ∈ self.ranked keccak256) :
    (self.ranked keccak256).filter (fun other => other.identityKey = candidate.identityKey) = [candidate] :=
  filter_eq_singleton (nodup_ranked keccak256 self) h

theorem identities_ranked_pairwise (config : CandidateStoreConfig) (offers : List PeerCandidate) :
    ((((new config).insertAll keccak256 offers).ranked keccak256).map PeerCandidate.identityKey).Pairwise
      fun a b => (new config).score keccak256 a ≤ (new config).score keccak256 b := by
  rw [List.pairwise_map]
  simpa only [score_insertAll] using ranked_pairwise_le keccak256 ((new config).insertAll keccak256 offers)

section Injective

variable {config : CandidateStoreConfig} {offers : List PeerCandidate}
  (hInj : ∀ a ∈ offers, ∀ b ∈ offers, (new config).score keccak256 a.identityKey =
    (new config).score keccak256 b.identityKey → a.identityKey = b.identityKey)

include hInj in
theorem score_new_injOn :
    Set.InjOn ((new config).score keccak256) (identities PeerCandidate.identityKey offers) := by
  intro k hk j hj hScore
  obtain ⟨a, ha, rfl⟩ := mem_identities.mp hk
  obtain ⟨b, hb, rfl⟩ := mem_identities.mp hj
  exact hInj a ha b hb hScore

include hInj in
theorem score_injOn : Set.InjOn (((new config).insertAll keccak256 offers).score keccak256)
    (identities PeerCandidate.identityKey offers) := by
  intro k hk j hj hScore
  rw [score_insertAll, score_insertAll] at hScore
  exact score_new_injOn hInj hk hj hScore

include hInj in
theorem exists_ranked_of_drawn {identity : Bytes} (h : Drawn keccak256 config offers identity) :
    ∃ candidate ∈ ((new config).insertAll keccak256 offers).ranked keccak256, candidate.identityKey = identity := by
  obtain ⟨hOffered, hAhead⟩ := h
  have hSample := @samples_new_insertAll keccak256 config offers
  exact exists_ranked_of_key hSample (hSample.mem_of_card_ahead_lt (score_new_injOn hInj) (mem_identities.mpr hOffered) hAhead)

include hInj in
theorem freshestSample_insertAll :
    FreshestSample keccak256 config offers ((new config).insertAll keccak256 offers) := by
  have hSample := samples_insertAll keccak256 config offers
  have hScores := score_injOn hInj
  have hScore := score_insertAll keccak256 config offers
  have hCap : ((new config).insertAll keccak256 offers).config.maxCandidates =
      max 1 config.maxCandidates := by
    rw [config_insertAll, max_comm]
    rfl
  have hOffered : ∀ identity ∈ ((new config).insertAll keccak256 offers).candidates.keys,
      identity ∈ identities PeerCandidate.identityKey offers :=
    fun identity hKey => hSample.offered (List.mem_toFinset.mpr hKey)
  refine ⟨?_, ?_, ?_, ?_, ?_, ?_, ?_⟩
  · exact fun identity hKey => mem_identities.mp (hOffered identity hKey)
  · have hCard := hSample.card_eq
    rwa [card_keys, hCap, identities, List.card_toFinset] at hCard
  · intro identity hKey offer hOffer hNot
    rw [← hScore, ← hScore]
    exact hSample.score_lt hScores (List.mem_toFinset.mpr hKey) (mem_identities.mpr ⟨offer, hOffer, rfl⟩)
      (mt List.mem_toFinset.mp hNot)
  · exact fun identity hKey => freshest_of_samples hSample hKey
  · exact map_identityKey_ranked_perm keccak256 _
  · exact fun candidate hMem => (mem_ranked keccak256).mp hMem
  · have hNodup := List.pairwise_map.mp (nodup_ranked keccak256 ((new config).insertAll keccak256 offers))
    apply ((ranked_pairwise_le keccak256 _).and hNodup).imp_of_mem
    rintro a b ha hb ⟨hle, hNe⟩
    rw [hScore, hScore] at hle
    refine lt_of_le_of_ne hle fun hEq => hNe (hScores (hOffered _ ?_) (hOffered _ ?_) ?_)
    · exact mem_keys_of_lookup ((mem_ranked keccak256).mp ha)
    · exact mem_keys_of_lookup ((mem_ranked keccak256).mp hb)
    · rwa [hScore, hScore]

include hInj in
/-- The order of the offers does not matter where no two different offers tie in full. -/
theorem insertAll_eq_of_perm {reordered : List PeerCandidate} (hPerm : offers.Perm reordered)
    (hTies : ∀ a ∈ offers, ∀ b ∈ offers, a.identityKey = b.identityKey → a.freshness = b.freshness → a = b) :
    (∀ identity, ((new config).insertAll keccak256 reordered).candidates.lookup identity =
      ((new config).insertAll keccak256 offers).candidates.lookup identity) ∧
    ((new config).insertAll keccak256 reordered).ranked keccak256 =
      ((new config).insertAll keccak256 offers).ranked keccak256 := by
  have hSample := samples_insertAll keccak256 config offers
  have hSample' := samples_insertAll keccak256 config reordered
  have hScores := score_injOn hInj
  have hConfig : ((new config).insertAll keccak256 reordered).config =
      ((new config).insertAll keccak256 offers).config := by
    rw [config_insertAll, config_insertAll]
  have hScore : ((new config).insertAll keccak256 reordered).score keccak256 =
      ((new config).insertAll keccak256 offers).score keccak256 := by
    funext identity
    rw [score_insertAll, score_insertAll]
  rw [Samples, hConfig, hScore] at hSample'
  have hLookup := hSample.get_unique hSample' hPerm hScores hTies
  refine ⟨fun identity => (congrFun hLookup identity).symm, Eq.symm ?_⟩
  apply ranked_eq_of_lookup keccak256 (congrFun hLookup) hConfig.symm
  intro a ha b hb hab
  exact hScores (hSample.offered (List.mem_toFinset.mpr ha)) (hSample.offered (List.mem_toFinset.mpr hb)) hab

include hInj in
/-- Which identities are sampled, and their order, depends on nothing but the set of identities offered. -/
theorem identities_ranked_eq {other : List PeerCandidate}
    (hSame : identities PeerCandidate.identityKey offers = identities PeerCandidate.identityKey other) :
    (((new config).insertAll keccak256 other).ranked keccak256).map PeerCandidate.identityKey =
      (((new config).insertAll keccak256 offers).ranked keccak256).map PeerCandidate.identityKey := by
  have hSample := @samples_new_insertAll keccak256 config offers
  have hKeys := hSample.keys_unique (@samples_new_insertAll keccak256 config other) hSame (score_new_injOn hInj)
  have hPerm : ((new config).insertAll keccak256 other).candidates.keys.Perm
      ((new config).insertAll keccak256 offers).candidates.keys :=
    (List.perm_ext_iff_of_nodup (AList.keys_nodup _) (AList.keys_nodup _)).mpr fun identity => by
      rw [← List.mem_toFinset, ← hKeys, List.mem_toFinset]
  have hRanked := (map_identityKey_ranked_perm keccak256 ((new config).insertAll keccak256 other)).trans
    (hPerm.trans (map_identityKey_ranked_perm keccak256 ((new config).insertAll keccak256 offers)).symm)
  refine hRanked.eq_of_pairwise (fun a b ha hb hab hba => ?_) (identities_ranked_pairwise config other)
    (identities_ranked_pairwise config offers)
  have hOffered : ∀ identity ∈ (((new config).insertAll keccak256 offers).ranked keccak256).map
      PeerCandidate.identityKey, identity ∈ identities PeerCandidate.identityKey offers := fun identity hMem =>
    hSample.offered (List.mem_toFinset.mpr ((map_identityKey_ranked_perm keccak256 _).mem_iff.mp hMem))
  exact score_new_injOn hInj (hOffered a (hRanked.mem_iff.mp ha)) (hOffered b hb) (le_antisymm hab hba)

end Injective

/-- The candidate store specification: over any sequence of inserts, and under any order of them. -/
theorem candidateStore_specification {config : CandidateStoreConfig} {offers : List PeerCandidate}
    (hInj : ∀ a ∈ offers, ∀ b ∈ offers, (new config).score keccak256 a.identityKey =
      (new config).score keccak256 b.identityKey → a.identityKey = b.identityKey) :
    FreshestSample keccak256 config offers ((new config).insertAll keccak256 offers) ∧
    ∀ reordered, offers.Perm reordered →
      (∀ a ∈ offers, ∀ b ∈ offers, a.identityKey = b.identityKey → a.freshness = b.freshness → a = b) →
      (∀ identity, ((new config).insertAll keccak256 reordered).candidates.lookup identity =
        ((new config).insertAll keccak256 offers).candidates.lookup identity) ∧
      ((new config).insertAll keccak256 reordered).ranked keccak256 =
        ((new config).insertAll keccak256 offers).ranked keccak256 :=
  ⟨freshestSample_insertAll hInj, fun _ hPerm hTies => insertAll_eq_of_perm hInj hPerm hTies⟩

/-- keccak256 on the two identities of the run below, under the seed of thirty-two sevens. -/
def seededKeccak (input : Bytes) : B256 :=
  if input = List.replicate 32 7 ++ [0, 0, 0, 2, 1] then
    0xe2ef509258ffa32f0bcbbfa8dc6db77c020a96f2376a4c35e970ec5abd1553de
  else if input = List.replicate 32 7 ++ [0, 0, 0, 2, 2] then
    0x992a872022e6287c891a0cedbc6614be9f937c14fc258abc083053ee88501e27
  else 0

def seededConfig : CandidateStoreConfig where
  maxCandidates := 1
  samplingSeed := 0x0707070707070707070707070707070707070707070707070707070707070707

def plainCandidate (id : UInt8) (sequence : UInt64) : PeerCandidate where
  recordType := 2
  peerId := [id]
  sequence
  endpoints := [⟨"/ip4/192.0.2.1/tcp/4001"⟩]
  rawSignedRecord := [id]
  expiresAt := 100
  source := .resurrectRegistry
  announcementBlock := some sequence
  announcementLogIndex := some 0

theorem candidateStore_specification_evicting :
    FreshestSample seededKeccak seededConfig
      [plainCandidate 1 9, plainCandidate 2 3, plainCandidate 1 10, plainCandidate 2 4]
      ((new seededConfig).insertAll seededKeccak
        [plainCandidate 1 9, plainCandidate 2 3, plainCandidate 1 10, plainCandidate 2 4]) :=
  (candidateStore_specification (by decide)).1

example : ((new seededConfig).insertAll seededKeccak [plainCandidate 1 9, plainCandidate 2 3,
    plainCandidate 1 10, plainCandidate 2 4]).ranked seededKeccak = [plainCandidate 2 4] := by
  decide +kernel

end Resurrect.Core.CandidateStore
