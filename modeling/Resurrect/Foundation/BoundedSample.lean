import Mathlib.Data.Finset.Card
import Mathlib.Data.Finset.Max
import Mathlib.Data.Set.Function
import Mathlib.Order.Lattice
import Mathlib.Logic.Function.Basic

/-! # Bounded samples of an offered stream

Items arrive one at a time, each under an identity and with a freshness. A sample
keeps at most `cap` identities, those of the least score, and under each identity
the freshest item offered so far. The five rules below say what one offer may do
to a sample; everything else follows from `IsSample` alone.
-/

namespace Resurrect.BoundedSample

variable {ι α σ φ : Type*}

section Selection

variable [LinearOrder σ]

/-- A greatest element by `score`, the last one among equals. -/
def maxByKey (score : ι → σ) (keys : List ι) : Option ι :=
  keys.foldl (fun best key => match best with
    | none => some key
    | some held => if score held ≤ score key then some key else some held) none

theorem maxByKey_append (score : ι → σ) (keys : List ι) (key : ι) :
    maxByKey score (keys ++ [key]) = match maxByKey score keys with
      | none => some key
      | some held => if score held ≤ score key then some key else some held := by
  simp [maxByKey, List.foldl_append]

theorem maxByKey_eq_none {score : ι → σ} {keys : List ι} : maxByKey score keys = none ↔ keys = [] := by
  induction keys using List.reverseRecOn with
  | nil => simp [maxByKey]
  | append_singleton keys key _ =>
    rw [maxByKey_append]
    cases maxByKey score keys with
    | none => simp
    | some held => dsimp only; split <;> simp

theorem maxByKey_spec {score : ι → σ} {keys : List ι} {worst : ι}
    (h : maxByKey score keys = some worst) : worst ∈ keys ∧ ∀ k ∈ keys, score k ≤ score worst := by
  induction keys using List.reverseRecOn generalizing worst with
  | nil => cases h
  | append_singleton keys key ih =>
    rw [maxByKey_append] at h
    cases hHeld : maxByKey score keys with
    | none =>
      rw [hHeld] at h
      obtain rfl := Option.some.inj h
      obtain rfl := maxByKey_eq_none.mp hHeld
      simp
    | some held =>
      obtain ⟨hMem, hMax⟩ := ih hHeld
      rw [hHeld] at h
      dsimp only at h
      split at h <;> rename_i hle <;> obtain rfl := Option.some.inj h
      · refine ⟨by simp, fun k hk => ?_⟩
        obtain hk | hk := List.mem_append.mp hk
        · exact (hMax k hk).trans hle
        · rw [List.mem_singleton.mp hk]
      · refine ⟨by simp [hMem], fun k hk => ?_⟩
        obtain hk | hk := List.mem_append.mp hk
        · exact hMax k hk
        · rw [List.mem_singleton.mp hk]
          exact (lt_of_not_ge hle).le

def sortByKey (score : ι → σ) (keys : List ι) : List ι :=
  keys.mergeSort fun a b => decide (score a ≤ score b)

theorem sortByKey_perm (score : ι → σ) (keys : List ι) : (sortByKey score keys).Perm keys :=
  List.mergeSort_perm _ _

theorem sortByKey_pairwise (score : ι → σ) (keys : List ι) :
    (sortByKey score keys).Pairwise fun a b => score a ≤ score b := by
  have h := @List.pairwise_mergeSort _ (fun a b => decide (score a ≤ score b))
    (fun a b c hab hbc => by simp only [decide_eq_true_eq] at *; exact hab.trans hbc)
    (fun a b => by simpa using le_total (score a) (score b)) keys
  simpa [sortByKey] using h

theorem sortByKey_eq_of_sorted {score : ι → σ} {keys sorted : List ι} (hPerm : keys.Perm sorted)
    (hSorted : sorted.Pairwise fun a b => score a ≤ score b)
    (hInj : ∀ a ∈ keys, ∀ b ∈ keys, score a = score b → a = b) : sortByKey score keys = sorted := by
  refine List.Perm.eq_of_pairwise ?_ (sortByKey_pairwise score keys) hSorted ((sortByKey_perm score keys).trans hPerm)
  intro a b ha hb hab hba
  exact hInj a ((sortByKey_perm score keys).mem_iff.mp ha) b (hPerm.mem_iff.mpr hb) (le_antisymm hab hba)

/-- Where no two keys share a score, the sorted list does not depend on the input order. -/
theorem sortByKey_eq_of_perm {score : ι → σ} {keys keys' : List ι} (hPerm : keys.Perm keys')
    (hInj : ∀ a ∈ keys, ∀ b ∈ keys, score a = score b → a = b) :
    sortByKey score keys = sortByKey score keys' :=
  sortByKey_eq_of_sorted (hPerm.trans (sortByKey_perm score keys').symm) (sortByKey_pairwise score keys') hInj

end Selection

section Freshest

variable [LinearOrder φ] (ident : α → ι) (fresh : α → φ)

/-- `item` is the first of the freshest items offered under `k`. -/
def IsFreshest (offers : List α) (k : ι) (item : α) : Prop :=
  ∃ before after, offers = before ++ item :: after ∧ ident item = k ∧
    (∀ a ∈ before, ident a = k → fresh a < fresh item) ∧
    ∀ a ∈ after, ident a = k → fresh a ≤ fresh item

variable {ident fresh}

theorem IsFreshest.mem {offers : List α} {k : ι} {item : α}
    (h : IsFreshest ident fresh offers k item) : item ∈ offers := by
  obtain ⟨before, after, rfl, -⟩ := h
  simp

theorem IsFreshest.ident_eq {offers : List α} {k : ι} {item : α}
    (h : IsFreshest ident fresh offers k item) : ident item = k := by
  obtain ⟨before, after, -, hk, -⟩ := h
  exact hk

theorem IsFreshest.fresh_le {offers : List α} {k : ι} {item a : α}
    (h : IsFreshest ident fresh offers k item) (ha : a ∈ offers) (hk : ident a = k) :
    fresh a ≤ fresh item := by
  obtain ⟨before, after, rfl, -, hBefore, hAfter⟩ := h
  obtain ha | ha := List.mem_append.mp ha
  · exact (hBefore a ha hk).le
  · obtain rfl | ha := List.mem_cons.mp ha
    · exact le_rfl
    · exact hAfter a ha hk

theorem IsFreshest.unique {offers : List α} {k : ι} {item other : α} (h : IsFreshest ident fresh offers k item)
    (hOther : IsFreshest ident fresh offers k other) : item = other := by
  obtain ⟨before, after, rfl, hIdent, hBefore, hAfter⟩ := h
  obtain ⟨before', after', hSplit, hIdent', hBefore', hAfter'⟩ := hOther
  obtain ⟨middle, rfl, hRest⟩ | ⟨middle, rfl, hRest⟩ := List.append_eq_append_iff.mp hSplit
  · obtain _ | ⟨head, middle⟩ := middle
    · exact (List.cons.inj hRest).1
    · obtain ⟨rfl, rfl⟩ := List.cons.inj hRest
      exact absurd (hAfter other (by simp) hIdent') (not_le.mpr (hBefore' item (by simp) hIdent))
  · obtain _ | ⟨head, middle⟩ := middle
    · exact (List.cons.inj hRest).1.symm
    · obtain ⟨rfl, rfl⟩ := List.cons.inj hRest
      exact absurd (hAfter' item (by simp) hIdent) (not_le.mpr (hBefore other (by simp) hIdent'))

variable [DecidableEq ι] (ident fresh)

def keepFresher (held : Option α) (offer : α) : Option α :=
  match held with
  | none => some offer
  | some item => if fresh item < fresh offer then some offer else some item

def freshest (offers : List α) (k : ι) : Option α :=
  (offers.filter fun a => decide (ident a = k)).foldl (keepFresher fresh) none

@[simp] theorem freshest_nil (k : ι) : freshest ident fresh [] k = none := rfl

theorem freshest_append_self (offers : List α) (offer : α) :
    freshest ident fresh (offers ++ [offer]) (ident offer) =
      keepFresher fresh (freshest ident fresh offers (ident offer)) offer := by
  simp [freshest, List.filter_append, List.foldl_append]

theorem freshest_append_of_ne (offers : List α) {offer : α} {k : ι} (hk : ident offer ≠ k) :
    freshest ident fresh (offers ++ [offer]) k = freshest ident fresh offers k := by
  simp [freshest, List.filter_append, hk]

variable {ident fresh}

theorem freshest_eq_none {offers : List α} {k : ι} :
    freshest ident fresh offers k = none ↔ ∀ a ∈ offers, ident a ≠ k := by
  induction offers using List.reverseRecOn with
  | nil => simp
  | append_singleton offers offer ih =>
    by_cases hk : ident offer = k
    · subst hk
      rw [freshest_append_self]
      constructor
      · intro h
        cases hHeld : freshest ident fresh offers (ident offer) with
        | none => rw [hHeld] at h; cases h
        | some item => rw [hHeld, keepFresher] at h; split at h <;> cases h
      · intro h
        exact absurd rfl (h offer (by simp))
    · rw [freshest_append_of_ne ident fresh offers hk, ih]
      simp [or_imp, forall_and, hk]

theorem isFreshest_of_freshest {offers : List α} {k : ι} {item : α}
    (h : freshest ident fresh offers k = some item) : IsFreshest ident fresh offers k item := by
  induction offers using List.reverseRecOn generalizing item with
  | nil => cases h
  | append_singleton offers offer ih =>
    by_cases hk : ident offer = k
    · subst hk
      rw [freshest_append_self] at h
      cases hHeld : freshest ident fresh offers (ident offer) with
      | none =>
        rw [hHeld] at h
        obtain rfl := Option.some.inj h
        refine ⟨offers, [], rfl, rfl, fun a ha hk => ?_, by simp⟩
        exact absurd hk (freshest_eq_none.mp hHeld a ha)
      | some held =>
        obtain hIs := ih hHeld
        rw [hHeld, keepFresher] at h
        split at h <;> rename_i hlt <;> obtain rfl := Option.some.inj h
        · exact ⟨offers, [], rfl, rfl, fun a ha hk => (hIs.fresh_le ha hk).trans_lt hlt, by simp⟩
        · obtain ⟨before, after, rfl, hIdent, hBefore, hAfter⟩ := hIs
          refine ⟨before, after ++ [offer], by simp, hIdent, hBefore, fun a ha hk => ?_⟩
          obtain ha | ha := List.mem_append.mp ha
          · exact hAfter a ha hk
          · rw [List.mem_singleton.mp ha]
            exact not_lt.mp hlt
    · rw [freshest_append_of_ne ident fresh offers hk] at h
      obtain ⟨before, after, rfl, hIdent, hBefore, hAfter⟩ := ih h
      refine ⟨before, after ++ [offer], by simp, hIdent, hBefore, fun a ha hka => ?_⟩
      obtain ha | ha := List.mem_append.mp ha
      · exact hAfter a ha hka
      · rw [List.mem_singleton.mp ha] at hka
        exact absurd hka hk

theorem freshest_eq_some {offers : List α} {k : ι} {item : α} :
    freshest ident fresh offers k = some item ↔ IsFreshest ident fresh offers k item := by
  refine ⟨isFreshest_of_freshest, fun h => ?_⟩
  cases hHeld : freshest ident fresh offers k with
  | none => exact absurd h.ident_eq (freshest_eq_none.mp hHeld item h.mem)
  | some held => rw [h.unique (isFreshest_of_freshest hHeld)]

/-- Reordering the offers changes nothing where no two different offers of `k` are equally fresh. -/
theorem freshest_eq_of_perm {offers offers' : List α} {k : ι} (hPerm : offers.Perm offers')
    (hTies : ∀ a ∈ offers, ∀ b ∈ offers, ident a = k → ident b = k → fresh a = fresh b → a = b) :
    freshest ident fresh offers k = freshest ident fresh offers' k := by
  cases h : freshest ident fresh offers k with
  | none =>
    rw [eq_comm, freshest_eq_none]
    exact fun a ha => freshest_eq_none.mp h a (hPerm.mem_iff.mpr ha)
  | some item =>
    have hItem := isFreshest_of_freshest h
    cases h' : freshest ident fresh offers' k with
    | none =>
      exact absurd hItem.ident_eq (freshest_eq_none.mp h' item (hPerm.mem_iff.mp hItem.mem))
    | some item' =>
      have hItem' := isFreshest_of_freshest h'
      have hMem' : item' ∈ offers := hPerm.mem_iff.mpr hItem'.mem
      have hle : fresh item' ≤ fresh item := hItem.fresh_le hMem' hItem'.ident_eq
      have hge : fresh item ≤ fresh item' :=
        hItem'.fresh_le (hPerm.mem_iff.mp hItem.mem) hItem.ident_eq
      rw [hTies item hItem.mem item' hMem' hItem.ident_eq hItem'.ident_eq (le_antisymm hge hle)]

end Freshest

section Sample

variable [DecidableEq ι] [LinearOrder σ] [LinearOrder φ]
variable {ident : α → ι} {fresh : α → φ} {cap : Nat} {score : ι → σ}

def identities (ident : α → ι) (offers : List α) : Finset ι := (offers.map ident).toFinset

@[simp] theorem mem_identities {offers : List α} {k : ι} :
    k ∈ identities ident offers ↔ ∃ a ∈ offers, ident a = k := by
  simp [identities]

variable (ident fresh cap score) in
/-- What is kept after `offers`. An identity that was turned away or pushed out
scores at least as badly as all that are kept, so it can never come back. -/
structure IsSample (offers : List α) (keys : Finset ι) (get : ι → Option α) : Prop where
  bounded : keys.card ≤ cap
  offered : keys ⊆ identities ident offers
  held : ∀ k ∈ keys, get k = freshest ident fresh offers k
  absent : ∀ k ∉ keys, get k = none
  excluded : ∀ k ∈ identities ident offers, k ∉ keys →
    keys.card = cap ∧ ∀ j ∈ keys, score j ≤ score k

variable {offers : List α} {keys : Finset ι} {get : ι → Option α} {offer : α}

theorem mem_identities_append {k : ι} : k ∈ identities ident (offers ++ [offer]) ↔
    k ∈ identities ident offers ∨ k = ident offer := by
  simp [or_and_right, exists_or, eq_comm]

theorem IsSample.empty : IsSample ident fresh cap score [] ∅ fun _ => none where
  bounded := by simp
  offered := by simp
  held := by simp
  absent := by simp
  excluded := by simp

theorem IsSample.not_offered (h : IsSample ident fresh cap score offers keys get) {k : ι}
    (hk : k ∉ keys) (hRoom : keys.card < cap ∨ ∃ j ∈ keys, score k < score j) :
    k ∉ identities ident offers := by
  intro hOffered
  obtain ⟨hFull, hWorst⟩ := h.excluded k hOffered hk
  obtain hRoom | ⟨j, hj, hlt⟩ := hRoom
  · omega
  · exact absurd (hWorst j hj) (not_le.mpr hlt)

theorem IsSample.offered_append (h : IsSample ident fresh cap score offers keys get) :
    keys ⊆ identities ident (offers ++ [offer]) :=
  fun _ hk => mem_identities_append.mpr (.inl (h.offered hk))

theorem IsSample.refresh (h : IsSample ident fresh cap score offers keys get)
    (hk : ident offer ∈ keys) {item : α} (hItem : get (ident offer) = some item)
    (hlt : fresh item < fresh offer) :
    IsSample ident fresh cap score (offers ++ [offer]) keys
      (Function.update get (ident offer) (some offer)) where
  bounded := h.bounded
  offered := h.offered_append
  held := by
    intro k hkeys
    by_cases hEq : k = ident offer
    · subst hEq
      rw [Function.update_self, freshest_append_self, ← h.held _ hk, hItem, keepFresher, if_pos hlt]
    · rw [Function.update_of_ne hEq, freshest_append_of_ne _ _ _ (Ne.symm hEq), h.held k hkeys]
  absent := by
    intro k hkeys
    have hNe : k ≠ ident offer := by
      rintro rfl
      exact hkeys hk
    rw [Function.update_of_ne hNe]
    exact h.absent k hkeys
  excluded := by
    intro k hOffered hkeys
    obtain hOffered | rfl := mem_identities_append.mp hOffered
    · exact h.excluded k hOffered hkeys
    · exact absurd hk hkeys

theorem IsSample.stale (h : IsSample ident fresh cap score offers keys get)
    (hk : ident offer ∈ keys) {item : α} (hItem : get (ident offer) = some item)
    (hle : fresh offer ≤ fresh item) :
    IsSample ident fresh cap score (offers ++ [offer]) keys get where
  bounded := h.bounded
  offered := h.offered_append
  held := by
    intro k hkeys
    by_cases hEq : k = ident offer
    · subst hEq
      rw [freshest_append_self, ← h.held _ hk, hItem, keepFresher, if_neg (not_lt.mpr hle)]
    · rw [freshest_append_of_ne _ _ _ (Ne.symm hEq), h.held k hkeys]
  absent := h.absent
  excluded := by
    intro k hOffered hkeys
    obtain hOffered | rfl := mem_identities_append.mp hOffered
    · exact h.excluded k hOffered hkeys
    · exact absurd hk hkeys

theorem freshest_append_new (hk : ident offer ∉ identities ident offers) :
    freshest ident fresh (offers ++ [offer]) (ident offer) = some offer := by
  have hNone : freshest ident fresh offers (ident offer) = none :=
    freshest_eq_none.mpr fun a ha hEq => hk (mem_identities.mpr ⟨a, ha, hEq⟩)
  rw [freshest_append_self, hNone, keepFresher]

theorem IsSample.accept (h : IsSample ident fresh cap score offers keys get)
    (hk : ident offer ∉ keys) (hRoom : keys.card < cap) :
    IsSample ident fresh cap score (offers ++ [offer]) (insert (ident offer) keys)
      (Function.update get (ident offer) (some offer)) where
  bounded := by rw [Finset.card_insert_of_notMem hk]; omega
  offered := by
    refine Finset.insert_subset ?_ h.offered_append
    exact mem_identities_append.mpr (.inr rfl)
  held := by
    intro k hkeys
    by_cases hEq : k = ident offer
    · subst hEq
      rw [Function.update_self, freshest_append_new (h.not_offered hk (.inl hRoom))]
    · rw [Function.update_of_ne hEq, freshest_append_of_ne _ _ _ (Ne.symm hEq)]
      exact h.held k (Finset.mem_of_mem_insert_of_ne hkeys hEq)
  absent := by
    intro k hkeys
    obtain ⟨hEq, hkeys⟩ := not_or.mp (fun hc => hkeys (Finset.mem_insert.mpr hc))
    rw [Function.update_of_ne hEq]
    exact h.absent k hkeys
  excluded := by
    intro k hOffered hkeys
    obtain ⟨hEq, hkeys⟩ := not_or.mp (fun hc => hkeys (Finset.mem_insert.mpr hc))
    obtain hOffered | rfl := mem_identities_append.mp hOffered
    · have := (h.excluded k hOffered hkeys).1
      omega
    · exact absurd rfl hEq

theorem IsSample.evict (h : IsSample ident fresh cap score offers keys get)
    (hk : ident offer ∉ keys) (hFull : keys.card = cap) {worst : ι} (hMem : worst ∈ keys)
    (hWorst : ∀ j ∈ keys, score j ≤ score worst) (hlt : score (ident offer) < score worst) :
    IsSample ident fresh cap score (offers ++ [offer]) (insert (ident offer) (keys.erase worst))
      (Function.update (Function.update get worst none) (ident offer) (some offer)) := by
  have hCard : (insert (ident offer) (keys.erase worst)).card = cap := by
    have hPos : 0 < keys.card := Finset.card_pos.mpr ⟨worst, hMem⟩
    rw [Finset.card_insert_of_notMem (fun hc => hk (Finset.mem_of_mem_erase hc)),
      Finset.card_erase_of_mem hMem]
    omega
  refine ⟨hCard.le, ?_, ?_, ?_, ?_⟩
  · apply Finset.insert_subset (mem_identities_append.mpr (.inr rfl))
    exact (Finset.erase_subset _ _).trans h.offered_append
  · intro k hkeys
    by_cases hEq : k = ident offer
    · subst hEq
      rw [Function.update_self, freshest_append_new (h.not_offered hk (.inr ⟨worst, hMem, hlt⟩))]
    · obtain ⟨hNe, hkeys⟩ := Finset.mem_erase.mp (Finset.mem_of_mem_insert_of_ne hkeys hEq)
      rw [Function.update_of_ne hEq, Function.update_of_ne hNe,
        freshest_append_of_ne _ _ _ (Ne.symm hEq), h.held k hkeys]
  · intro k hkeys
    obtain ⟨hEq, hkeys⟩ := not_or.mp (fun hc => hkeys (Finset.mem_insert.mpr hc))
    rw [Function.update_of_ne hEq]
    by_cases hNe : k = worst
    · rw [hNe, Function.update_self]
    · rw [Function.update_of_ne hNe]
      exact h.absent k fun hc => hkeys (Finset.mem_erase.mpr ⟨hNe, hc⟩)
  · intro k hOffered hkeys
    obtain ⟨hEq, hErase⟩ := not_or.mp (fun hc => hkeys (Finset.mem_insert.mpr hc))
    have hScore : score worst ≤ score k := by
      by_cases hNe : k = worst
      · rw [hNe]
      · have hNot : k ∉ keys := fun hc => hErase (Finset.mem_erase.mpr ⟨hNe, hc⟩)
        obtain hOffered | rfl := mem_identities_append.mp hOffered
        · exact (h.excluded k hOffered hNot).2 worst hMem
        · exact absurd rfl hEq
    refine ⟨hCard, fun j hj => ?_⟩
    obtain rfl | hj := Finset.mem_insert.mp hj
    · exact hlt.le.trans hScore
    · exact (hWorst j (Finset.mem_of_mem_erase hj)).trans hScore

theorem IsSample.reject (h : IsSample ident fresh cap score offers keys get)
    (hk : ident offer ∉ keys) (hFull : keys.card = cap)
    (hle : ∀ j ∈ keys, score j ≤ score (ident offer)) :
    IsSample ident fresh cap score (offers ++ [offer]) keys get where
  bounded := h.bounded
  offered := h.offered_append
  held := by
    intro k hkeys
    have hNe : ident offer ≠ k := by
      rintro rfl
      exact hk hkeys
    rw [freshest_append_of_ne _ _ _ hNe, h.held k hkeys]
  absent := h.absent
  excluded := by
    intro k hOffered hkeys
    obtain hOffered | rfl := mem_identities_append.mp hOffered
    · exact h.excluded k hOffered hkeys
    · exact ⟨hFull, hle⟩

theorem IsSample.keys_eq_of_card_le (h : IsSample ident fresh cap score offers keys get)
    (hCard : (identities ident offers).card ≤ cap) : keys = identities ident offers := by
  by_contra hNe
  obtain ⟨k, hOffered, hk⟩ := Finset.exists_of_ssubset (h.offered.ssubset_of_ne hNe)
  have hLt := Finset.card_lt_card (h.offered.ssubset_of_ne hNe)
  have hFull := (h.excluded k hOffered hk).1
  omega

theorem IsSample.card_eq (h : IsSample ident fresh cap score offers keys get) :
    keys.card = min cap (identities ident offers).card := by
  obtain hCard | hCard := le_total (identities ident offers).card cap
  · rw [min_eq_right hCard, ← h.keys_eq_of_card_le hCard]
  · rw [min_eq_left hCard]
    by_contra hNe
    have hLt : keys.card < cap := lt_of_le_of_ne h.bounded hNe
    have hSub : keys ⊂ identities ident offers :=
      h.offered.ssubset_of_ne fun hEq => by rw [hEq] at hLt; omega
    obtain ⟨k, hOffered, hk⟩ := Finset.exists_of_ssubset hSub
    exact hNe (h.excluded k hOffered hk).1

theorem IsSample.score_lt (h : IsSample ident fresh cap score offers keys get)
    (hInj : Set.InjOn score (identities ident offers)) {k j : ι} (hk : k ∈ keys)
    (hj : j ∈ identities ident offers) (hNot : j ∉ keys) : score k < score j := by
  apply lt_of_le_of_ne ((h.excluded j hj hNot).2 k hk)
  intro hEq
  exact hNot (hInj (h.offered hk) hj hEq ▸ hk)

/-- The identities offered that score better than `k`. -/
def ahead (ident : α → ι) (score : ι → σ) (offers : List α) (k : ι) : Finset ι :=
  (identities ident offers).filter fun j => score j < score k

theorem mem_ahead {k j : ι} : j ∈ ahead ident score offers k ↔
    j ∈ identities ident offers ∧ score j < score k := Finset.mem_filter

theorem IsSample.card_ahead_lt (h : IsSample ident fresh cap score offers keys get) {k : ι}
    (hk : k ∈ keys) : (ahead ident score offers k).card < cap := by
  have hSub : ahead ident score offers k ⊆ keys.erase k := by
    intro j hj
    obtain ⟨hOffered, hLt⟩ := mem_ahead.mp hj
    refine Finset.mem_erase.mpr ⟨fun hEq => lt_irrefl _ (hEq ▸ hLt), ?_⟩
    by_contra hNot
    exact not_lt.mpr ((h.excluded j hOffered hNot).2 k hk) hLt
  calc (ahead ident score offers k).card ≤ (keys.erase k).card := Finset.card_le_card hSub
    _ < keys.card := Finset.card_erase_lt_of_mem hk
    _ ≤ cap := h.bounded

theorem IsSample.mem_of_card_ahead_lt (h : IsSample ident fresh cap score offers keys get)
    (hInj : Set.InjOn score (identities ident offers)) {k : ι} (hOffered : k ∈ identities ident offers)
    (hLt : (ahead ident score offers k).card < cap) : k ∈ keys := by
  by_contra hNot
  have hSub : keys ⊆ ahead ident score offers k := fun j hj =>
    mem_ahead.mpr ⟨h.offered hj, h.score_lt hInj hj hOffered hNot⟩
  have hCard := Finset.card_le_card hSub
  rw [(h.excluded k hOffered hNot).1] at hCard
  omega

theorem IsSample.get_isFreshest (h : IsSample ident fresh cap score offers keys get) {k : ι} {item : α}
    (hItem : get k = some item) : IsFreshest ident fresh offers k item := by
  by_cases hk : k ∈ keys
  · exact isFreshest_of_freshest (h.held k hk ▸ hItem)
  · rw [h.absent k hk] at hItem
    cases hItem

theorem IsSample.exists_get (h : IsSample ident fresh cap score offers keys get) {k : ι}
    (hk : k ∈ keys) : ∃ item, get k = some item := by
  obtain ⟨a, ha, hIdent⟩ := mem_identities.mp (h.offered hk)
  rw [h.held k hk, ← Option.ne_none_iff_exists']
  exact fun hNone => freshest_eq_none.mp hNone a ha hIdent

variable {offers' : List α} {keys' : Finset ι} {get' : ι → Option α}

/-- The kept identities are determined by the set of identities offered. -/
theorem IsSample.keys_unique (h : IsSample ident fresh cap score offers keys get)
    (h' : IsSample ident fresh cap score offers' keys' get')
    (hSame : identities ident offers = identities ident offers')
    (hInj : Set.InjOn score (identities ident offers)) : keys = keys' := by
  have hCard : keys.card = keys'.card := by rw [h.card_eq, h'.card_eq, hSame]
  by_contra hNe
  obtain ⟨k, hk, hk'⟩ : ∃ k ∈ keys, k ∉ keys' := by
    by_contra hAll
    exact hNe (Finset.eq_of_subset_of_card_le (fun k hk => by_contra fun hc => hAll ⟨k, hk, hc⟩) hCard.ge)
  obtain ⟨j, hj', hj⟩ : ∃ j ∈ keys', j ∉ keys := by
    by_contra hAll
    exact hNe (Finset.eq_of_subset_of_card_le (fun k hk => by_contra fun hc => hAll ⟨k, hk, hc⟩)
      hCard.le).symm
  have hkj := h.score_lt hInj hk (hSame ▸ h'.offered hj') hj
  have hjk := h'.score_lt (hSame ▸ hInj) hj' (hSame ▸ h.offered hk) hk'
  exact lt_asymm hkj hjk

theorem identities_eq_of_perm (hPerm : offers.Perm offers') :
    identities ident offers = identities ident offers' := by
  ext k
  simp [hPerm.mem_iff]

theorem IsSample.get_unique (h : IsSample ident fresh cap score offers keys get)
    (h' : IsSample ident fresh cap score offers' keys' get') (hPerm : offers.Perm offers')
    (hInj : Set.InjOn score (identities ident offers))
    (hTies : ∀ a ∈ offers, ∀ b ∈ offers, ident a = ident b → fresh a = fresh b → a = b) :
    get = get' := by
  have hKeys : keys = keys' := h.keys_unique h' (identities_eq_of_perm hPerm) hInj
  funext k
  by_cases hk : k ∈ keys
  · rw [h.held k hk, h'.held k (hKeys ▸ hk)]
    exact freshest_eq_of_perm hPerm fun a ha b hb hak hbk => hTies a ha b hb (hak.trans hbk.symm)
  · rw [h.absent k hk, h'.absent k (hKeys ▸ hk)]

variable (ident fresh cap score) in
/-- `item` is the freshest of its identity, and fewer than `cap` identities are ahead of it. -/
def Kept (offers : List α) (item : α) : Prop :=
  IsFreshest ident fresh offers (ident item) item ∧ (ahead ident score offers (ident item)).card < cap

/-- What a sample holds can be read off the offers. -/
theorem IsSample.get_eq_some_iff (h : IsSample ident fresh cap score offers keys get)
    (hInj : Set.InjOn score (identities ident offers)) {k : ι} {item : α} :
    get k = some item ↔ ident item = k ∧ Kept ident fresh cap score offers item := by
  constructor
  · intro hItem
    have hFreshest := h.get_isFreshest hItem
    have hk : k ∈ keys := by
      by_contra hNot
      rw [h.absent k hNot] at hItem
      cases hItem
    obtain rfl := hFreshest.ident_eq
    exact ⟨rfl, hFreshest, h.card_ahead_lt hk⟩
  · rintro ⟨rfl, hFreshest, hAhead⟩
    have hOffered : ident item ∈ identities ident offers := mem_identities.mpr ⟨item, hFreshest.mem, rfl⟩
    rw [h.held _ (h.mem_of_card_ahead_lt hInj hOffered hAhead)]
    exact freshest_eq_some.mpr hFreshest

end Sample

section View

variable {κ γ τ : Type*} [DecidableEq ι] [LinearOrder σ] [LinearOrder τ]
  {ident : α → ι} {fresh : α → φ} {cap : Nat} {score : ι → σ} {view : α → γ} {name : ι → κ} {key : γ → κ} {age : γ → φ}
  {rank : κ → τ} {offers : List α}

variable (ident fresh score view name key age rank) in
/-- A view of the offers under other names, which keeps the freshness, the identities apart and their ranking. -/
structure Renames (offers : List α) : Prop where
  key_eq : ∀ a ∈ offers, key (view a) = name (ident a)
  age_eq : ∀ a ∈ offers, age (view a) = fresh a
  name_inj : Set.InjOn name (identities ident offers)
  rank_lt : ∀ j ∈ identities ident offers, ∀ k ∈ identities ident offers, rank (name j) < rank (name k) ↔ score j < score k

theorem Renames.key_inj (h : Renames ident fresh score view name key age rank offers) {a b : α} (ha : a ∈ offers)
    (hb : b ∈ offers) : key (view a) = key (view b) ↔ ident a = ident b := by
  rw [h.key_eq a ha, h.key_eq b hb]
  exact h.name_inj.eq_iff (mem_identities.mpr ⟨a, ha, rfl⟩) (mem_identities.mpr ⟨b, hb, rfl⟩)

theorem Renames.isFreshest_iff [LinearOrder φ] (h : Renames ident fresh score view name key age rank offers) {before after : List α}
    {a : α} (hSplit : offers = before ++ a :: after) :
    ((∀ b ∈ before.map view, key b = key (view a) → age b < age (view a)) ∧
      ∀ b ∈ after.map view, key b = key (view a) → age b ≤ age (view a)) ↔
    (∀ b ∈ before, ident b = ident a → fresh b < fresh a) ∧ ∀ b ∈ after, ident b = ident a → fresh b ≤ fresh a := by
  have ha : a ∈ offers := by simp [hSplit]
  have hBefore : ∀ b ∈ before, b ∈ offers := fun b hb => by simp [hSplit, hb]
  have hAfter : ∀ b ∈ after, b ∈ offers := fun b hb => by simp [hSplit, hb]
  simp only [List.forall_mem_map]
  refine and_congr (forall₂_congr fun b hb => ?_) (forall₂_congr fun b hb => ?_)
  · rw [h.key_inj (hBefore b hb) ha, h.age_eq b (hBefore b hb), h.age_eq a ha]
  · rw [h.key_inj (hAfter b hb) ha, h.age_eq b (hAfter b hb), h.age_eq a ha]

variable [DecidableEq κ]

theorem Renames.identities_map (h : Renames ident fresh score view name key age rank offers) :
    identities key (offers.map view) = (identities ident offers).image name := by
  ext k
  simp only [mem_identities, Finset.mem_image, List.mem_map]
  constructor
  · rintro ⟨_, ⟨a, ha, rfl⟩, rfl⟩
    exact ⟨ident a, ⟨a, ha, rfl⟩, (h.key_eq a ha).symm⟩
  · rintro ⟨_, ⟨a, ha, rfl⟩, rfl⟩
    exact ⟨view a, ⟨a, ha, rfl⟩, h.key_eq a ha⟩

theorem Renames.card_ahead (h : Renames ident fresh score view name key age rank offers) {a : α} (ha : a ∈ offers) :
    (ahead key rank (offers.map view) (key (view a))).card = (ahead ident score offers (ident a)).card := by
  have hAhead : ahead key rank (offers.map view) (key (view a)) = (ahead ident score offers (ident a)).image name := by
    ext k
    rw [mem_ahead, h.identities_map, h.key_eq a ha, Finset.mem_image, Finset.mem_image]
    constructor
    · rintro ⟨⟨j, hj, rfl⟩, hRank⟩
      exact ⟨j, mem_ahead.mpr ⟨hj, (h.rank_lt j hj _ (mem_identities.mpr ⟨a, ha, rfl⟩)).mp hRank⟩, rfl⟩
    · rintro ⟨j, hj, rfl⟩
      obtain ⟨hOffered, hScore⟩ := mem_ahead.mp hj
      exact ⟨⟨j, hOffered, rfl⟩, (h.rank_lt j hOffered _ (mem_identities.mpr ⟨a, ha, rfl⟩)).mpr hScore⟩
  rw [hAhead]
  apply Finset.card_image_of_injOn
  exact h.name_inj.mono (Finset.coe_subset.mpr (Finset.filter_subset _ _))

variable [LinearOrder φ]

/-- What is kept of the views are the views of what is kept. -/
theorem Renames.kept_iff (h : Renames ident fresh score view name key age rank offers) {image : γ} :
    Kept key age cap rank (offers.map view) image ↔ ∃ a, Kept ident fresh cap score offers a ∧ view a = image := by
  constructor
  · rintro ⟨⟨before', after', hSplit, -, hBefore, hAfter⟩, hAhead⟩
    obtain ⟨before, rest, rfl, rfl, hRest⟩ := List.map_eq_append_iff.mp hSplit
    obtain ⟨a, after, rfl, rfl, rfl⟩ := List.map_eq_cons_iff.mp hRest
    obtain ⟨hOlder, hNewer⟩ := (h.isFreshest_iff rfl).mp ⟨hBefore, hAfter⟩
    rw [h.card_ahead (by simp)] at hAhead
    exact ⟨a, ⟨⟨before, after, rfl, rfl, hOlder, hNewer⟩, hAhead⟩, rfl⟩
  · rintro ⟨a, ⟨⟨before, after, rfl, -, hBefore, hAfter⟩, hAhead⟩, rfl⟩
    obtain ⟨hOlder, hNewer⟩ := (h.isFreshest_iff rfl).mpr ⟨hBefore, hAfter⟩
    rw [← h.card_ahead (by simp)] at hAhead
    exact ⟨⟨before.map view, after.map view, by simp, rfl, hOlder, hNewer⟩, hAhead⟩

end View

end Resurrect.BoundedSample
