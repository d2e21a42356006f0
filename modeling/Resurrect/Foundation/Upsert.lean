import Resurrect.Foundation.AssocMap
import Resurrect.Foundation.BoundedSample

/-! # Guarded upserts

Items are written one after another under their own keys, each seeing the value
that is held there. What a key holds at the end depends on the items of that key
alone; where an item replaces a value of at most its own score, the last of the
greatest items is held.
-/

namespace Resurrect.Upsert

open BoundedSample

variable {ι α β σ : Type*} [DecidableEq ι] (key : α → ι)

section Write

variable (replace : Option β → α → β)

def upsert (table : AList fun _ : ι => β) (item : α) : AList fun _ : ι => β :=
  table.insert (key item) (replace (table.lookup (key item)) item)

def upsertAll (table : AList fun _ : ι => β) (items : List α) : AList fun _ : ι => β :=
  items.foldl (upsert key replace) table

def own (items : List α) (k : ι) : List α := items.filter fun item => key item = k

def replaceAll (held : Option β) (items : List α) : Option β :=
  items.foldl (fun held item => some (replace held item)) held

theorem replaceAll_append (held : Option β) (items more : List α) :
    replaceAll replace held (items ++ more) = replaceAll replace (replaceAll replace held items) more :=
  List.foldl_append

theorem own_append (items more : List α) (k : ι) : own key (items ++ more) k = own key items k ++ own key more k :=
  List.filter_append items more

theorem mem_own {items : List α} {k : ι} {item : α} : item ∈ own key items k ↔ item ∈ items ∧ key item = k := by
  simp [own]

theorem own_own (items : List α) (k : ι) : own key (own key items k) k = own key items k := by
  simp [own, List.filter_filter]

theorem lookup_upsertAll (table : AList fun _ : ι => β) (items : List α) (k : ι) :
    (upsertAll key replace table items).lookup k = replaceAll replace (table.lookup k) (own key items k) := by
  induction items generalizing table with
  | nil => rfl
  | cons item items ih =>
    rw [upsertAll, List.foldl_cons, ← upsertAll, ih]
    by_cases hKey : key item = k
    · subst hKey
      rw [own, own, List.filter_cons_of_pos (by simp), replaceAll, replaceAll, List.foldl_cons, upsert,
        AList.lookup_insert]
    · rw [own, own, List.filter_cons_of_neg (by simpa using hKey), upsert, AList.lookup_insert_ne (Ne.symm hKey)]

end Write

section Newest

variable [LinearOrder σ] (score : α → σ)

/-- `item` is the last of the greatest items. -/
def IsNewest (items : List α) (item : α) : Prop :=
  ∃ before after, items = before ++ item :: after ∧
    (∀ other ∈ before, score other ≤ score item) ∧ ∀ other ∈ after, score other < score item

variable {score}

theorem IsNewest.mem {items : List α} {item : α} (h : IsNewest score items item) : item ∈ items := by
  obtain ⟨before, after, rfl, -⟩ := h
  simp

theorem isNewest_append {items : List α} {item last : α} : IsNewest score (items ++ [last]) item ↔
    item = last ∧ (∀ other ∈ items, score other ≤ score last) ∨
      IsNewest score items item ∧ score last < score item := by
  constructor
  · rintro ⟨before, after, hSplit, hBefore, hAfter⟩
    obtain rfl | ⟨init, final, rfl⟩ := List.eq_nil_or_concat after
    · obtain ⟨rfl, hLast⟩ := List.append_inj' hSplit rfl
      obtain rfl := List.singleton_inj.mp hLast
      exact .inl ⟨rfl, hBefore⟩
    · rw [List.concat_eq_append, ← List.cons_append, ← List.append_assoc] at hSplit
      obtain ⟨rfl, hLast⟩ := List.append_inj' hSplit rfl
      obtain rfl := List.singleton_inj.mp hLast
      refine .inr ⟨⟨before, init, rfl, hBefore, fun other hOther => hAfter other ?_⟩, hAfter last ?_⟩
      · simp [hOther]
      · simp
  · rintro (⟨rfl, hBefore⟩ | ⟨⟨before, after, rfl, hBefore, hAfter⟩, hLast⟩)
    · exact ⟨items, [], rfl, hBefore, by simp⟩
    · refine ⟨before, after ++ [last], by simp, hBefore, fun other hOther => ?_⟩
      obtain hOther | hOther := List.mem_append.mp hOther
      · exact hAfter other hOther
      · rwa [List.mem_singleton.mp hOther]

theorem not_isNewest_nil {item : α} : ¬ IsNewest score [] item := fun h => by cases h.mem

theorem maxByKey_eq_some {items : List α} {item : α} :
    maxByKey score items = some item ↔ IsNewest score items item := by
  induction items using List.reverseRecOn generalizing item with
  | nil => exact iff_of_false (fun h => by cases h) not_isNewest_nil
  | append_singleton items last ih =>
    rw [maxByKey_append, isNewest_append]
    cases hBest : maxByKey score items with
    | none =>
      obtain rfl := maxByKey_eq_none.mp hBest
      simp only [Option.some.injEq, List.not_mem_nil, false_imp_iff, implies_true, and_true, not_isNewest_nil,
        false_and, or_false, eq_comm]
    | some best =>
      obtain ⟨hMem, hMax⟩ := maxByKey_spec hBest
      have hOnly : ∀ other, IsNewest score items other → other = best := fun other hOther =>
        Option.some.inj ((ih.mpr hOther).symm.trans hBest)
      dsimp only
      split <;> rename_i hLe
      · constructor
        · intro h
          obtain rfl := Option.some.inj h
          exact .inl ⟨rfl, fun other hOther => (hMax other hOther).trans hLe⟩
        · rintro (⟨rfl, -⟩ | ⟨hNewest, hLt⟩)
          · rfl
          · rw [hOnly item hNewest] at hLt
            exact absurd hLe (not_le.mpr hLt)
      · constructor
        · intro h
          obtain rfl := Option.some.inj h
          exact .inr ⟨ih.mp hBest, not_le.mp hLe⟩
        · rintro (⟨-, hAll⟩ | ⟨hNewest, -⟩)
          · exact absurd (hAll best hMem) hLe
          · rw [hOnly item hNewest]

/-- Scores that order the items alike have the same newest item. -/
theorem maxByKey_congr {τ : Type*} [LinearOrder τ] {other : α → τ} {items : List α}
    (h : ∀ a ∈ items, ∀ b ∈ items, score a ≤ score b ↔ other a ≤ other b) :
    maxByKey score items = maxByKey other items := by
  cases hBest : maxByKey other items with
  | none => rw [maxByKey_eq_none.mpr (maxByKey_eq_none.mp hBest)]
  | some best =>
    rw [maxByKey_eq_some]
    obtain ⟨before, after, rfl, hBefore, hAfter⟩ := maxByKey_eq_some.mp hBest
    refine ⟨before, after, rfl, fun a ha => ?_, fun a ha => ?_⟩
    · exact (h a (by simp [ha]) best (by simp)).mpr (hBefore a ha)
    · rw [← not_le, h best (by simp) a (by simp [ha]), not_le]
      exact hAfter a ha

end Newest

section Guarded

variable [LinearOrder σ] (write : α → β) (itemScore : α → σ) (heldScore : β → σ)

def guarded (held : Option β) (item : α) : β :=
  match held with
  | none => write item
  | some value => if heldScore value ≤ itemScore item then write item else value

variable {write itemScore heldScore}

theorem guarded_append_max (hScore : ∀ item, heldScore (write item) = itemScore item) (value : β) (best item : α) :
    guarded write itemScore heldScore (some (guarded write itemScore heldScore (some value) best)) item =
      guarded write itemScore heldScore (some value) (if itemScore best ≤ itemScore item then item else best) := by
  by_cases hBest : heldScore value ≤ itemScore best
  · have hWritten : guarded write itemScore heldScore (some value) best = write best := if_pos hBest
    rw [hWritten]
    split
    · rename_i hItem
      exact (if_pos ((hScore best).trans_le hItem)).trans (if_pos (hBest.trans hItem)).symm
    · rename_i hItem
      rw [hWritten]
      exact if_neg fun hLe => hItem ((hScore best).symm.trans_le hLe)
  · have hKept : guarded write itemScore heldScore (some value) best = value := if_neg hBest
    rw [hKept]
    split
    · rfl
    · rename_i hItem
      rw [hKept]
      exact if_neg fun hLe => hBest (hLe.trans (not_le.mp hItem).le)

/-- The items of one key leave the last of the greatest of them, where it is let in at all. -/
theorem replaceAll_guarded (hScore : ∀ item, heldScore (write item) = itemScore item) (held : Option β)
    (items : List α) : replaceAll (guarded write itemScore heldScore) held items =
      match maxByKey itemScore items with
      | none => held
      | some item => some (guarded write itemScore heldScore held item) := by
  induction items using List.reverseRecOn with
  | nil => rfl
  | append_singleton items item ih =>
    rw [replaceAll_append, ih, maxByKey_append, replaceAll, List.foldl_cons, List.foldl_nil]
    cases maxByKey itemScore items with
    | none => rfl
    | some best =>
      dsimp only
      cases held with
      | none =>
        have hStep : guarded write itemScore heldScore (some (write best)) item =
            write (if itemScore best ≤ itemScore item then item else best) := by
          rw [guarded, hScore]
          split <;> rfl
        rw [guarded, hStep]
        split <;> rfl
      | some value =>
        rw [guarded_append_max hScore]
        split <;> rfl

section Trails

variable (heldScore) (fresh gone : β → Prop)

/-- What is held where values are dropped, beside what is held where none is: the same, or a fresh value
that is less than one that is gone. -/
inductive Trails : Option β → Option β → Prop
  | same (held : Option β) : Trails held held
  | behind {held : Option β} {value : β} (hGone : gone value)
      (hLess : ∀ other ∈ held, fresh other ∧ heldScore other < heldScore value) : Trails held (some value)

variable {heldScore fresh gone}

theorem Trails.guarded (hScore : ∀ item, heldScore (write item) = itemScore item) {held full : Option β}
    (h : Trails heldScore fresh gone held full) {item : α} (hFresh : fresh (write item)) : Trails heldScore fresh gone
      (some (guarded write itemScore heldScore held item)) (some (guarded write itemScore heldScore full item)) := by
  cases h with
  | same => exact .same _
  | @behind value hGone hLess =>
    by_cases hItem : heldScore value ≤ itemScore item
    · have hFull : Upsert.guarded write itemScore heldScore (some value) item = write item := if_pos hItem
      have hHeld : Upsert.guarded write itemScore heldScore held item = write item := by
        cases held with
        | none => rfl
        | some other => exact if_pos ((hLess other rfl).2.le.trans hItem)
      rw [hFull, hHeld]
      exact .same _
    · have hFull : Upsert.guarded write itemScore heldScore (some value) item = value := if_neg hItem
      rw [hFull]
      refine .behind hGone fun other hOther => ?_
      obtain rfl := Option.some.inj hOther
      cases held with
      | none => exact ⟨hFresh, (hScore item).trans_lt (not_le.mp hItem)⟩
      | some before =>
        rw [Upsert.guarded]
        split
        · exact ⟨hFresh, (hScore item).trans_lt (not_le.mp hItem)⟩
        · exact hLess before rfl

theorem Trails.replaceAll (hScore : ∀ item, heldScore (write item) = itemScore item) {held full : Option β}
    (h : Trails heldScore fresh gone held full) {items : List α} (hFresh : ∀ item ∈ items, fresh (write item)) :
    Trails heldScore fresh gone (replaceAll (Upsert.guarded write itemScore heldScore) held items)
      (replaceAll (Upsert.guarded write itemScore heldScore) full items) := by
  induction items generalizing held full with
  | nil => exact h
  | cons item items ih =>
    rw [List.forall_mem_cons] at hFresh
    exact ih (h.guarded hScore hFresh.1) hFresh.2

/-- Only values that are gone may be dropped. -/
theorem Trails.drop {held kept full : Option β} (h : Trails heldScore fresh gone held full)
    (hKept : kept = held ∨ kept = none ∧ ∀ value ∈ held, gone value) : Trails heldScore fresh gone kept full := by
  obtain rfl | ⟨rfl, hGone⟩ := hKept
  · exact h
  cases full with
  | none => exact .same none
  | some value =>
    refine .behind ?_ fun other hOther => by cases hOther
    cases h with
    | same => exact hGone value rfl
    | behind hValue _ => exact hValue

theorem Trails.mono {other : β → Prop} {held full : Option β} (h : Trails heldScore fresh gone held full)
    (hGone : ∀ value, gone value → other value) : Trails heldScore fresh other held full := by
  cases h with
  | same => exact .same _
  | behind hValue hLess => exact .behind (hGone _ hValue) hLess

end Trails

end Guarded

end Resurrect.Upsert
