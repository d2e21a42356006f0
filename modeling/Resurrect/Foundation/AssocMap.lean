import Mathlib.Data.List.AList
import Mathlib.Data.Finset.Card
import Mathlib.Logic.Function.Basic

/-! # Association lists as maps

How `AList.insert` and `AList.erase` act on the number of keys, on the set of
keys and on the lookup function, for values of one type.
-/

namespace Resurrect.AssocMap

variable {ι α : Type*} [DecidableEq ι] (entries : AList fun _ : ι => α)

theorem length_keys_insert (key : ι) (value : α) : (entries.insert key value).keys.length =
    if key ∈ entries.keys then entries.keys.length else entries.keys.length + 1 := by
  rw [AList.keys_insert, List.length_cons]
  split
  · rename_i hMem
    have := List.length_pos_of_mem hMem
    rw [List.length_erase_of_mem hMem]
    omega
  · rename_i hNot
    rw [List.erase_of_not_mem hNot]

theorem length_keys_erase {key : ι} (h : key ∈ entries.keys) :
    (entries.erase key).keys.length = entries.keys.length - 1 := by
  rw [AList.keys_erase, List.length_erase_of_mem h]

theorem length_keys_erase_le (key : ι) : (entries.erase key).keys.length ≤ entries.keys.length := by
  rw [AList.keys_erase]
  exact List.length_erase_le

theorem mem_keys_of_lookup {entries : AList fun _ : ι => α} {key : ι} {value : α}
    (h : entries.lookup key = some value) : key ∈ entries.keys :=
  AList.mem_keys.mp (AList.lookup_isSome.mp (by rw [h]; rfl))

theorem card_keys : entries.keys.toFinset.card = entries.keys.length :=
  List.toFinset_card_of_nodup entries.keys_nodup

theorem keys_insert_toFinset (key : ι) (value : α) :
    (entries.insert key value).keys.toFinset = insert key entries.keys.toFinset := by
  ext k
  simp only [List.mem_toFinset, Finset.mem_insert, ← AList.mem_keys, AList.mem_insert]

theorem keys_erase_toFinset (key : ι) :
    (entries.erase key).keys.toFinset = entries.keys.toFinset.erase key := by
  ext k
  simp only [List.mem_toFinset, Finset.mem_erase, ← AList.mem_keys, AList.mem_erase]

theorem lookup_insert_eq_update (key : ι) (value : α) :
    (fun k => (entries.insert key value).lookup k) =
      Function.update (fun k => entries.lookup k) key (some value) := by
  funext k
  by_cases hEq : k = key
  · subst hEq
    rw [AList.lookup_insert, Function.update_self]
  · rw [AList.lookup_insert_ne hEq, Function.update_of_ne hEq]

theorem lookup_erase_eq_update (key : ι) :
    (fun k => (entries.erase key).lookup k) =
      Function.update (fun k => entries.lookup k) key none := by
  funext k
  by_cases hEq : k = key
  · subst hEq
    rw [AList.lookup_erase, Function.update_self]
  · rw [AList.lookup_erase_ne hEq, Function.update_of_ne hEq]

section Ordered

/-- Writes in place where the key stands, and behind all others where it does not. -/
def writeEntry (key : ι) (value : α) : List (Sigma fun _ : ι => α) → List (Sigma fun _ : ι => α)
  | [] => [⟨key, value⟩]
  | entry :: rest => if entry.1 = key then ⟨key, value⟩ :: rest else entry :: writeEntry key value rest

theorem mem_keys_writeEntry (key k : ι) (value : α) (list : List (Sigma fun _ : ι => α)) :
    k ∈ (writeEntry key value list).keys ↔ k = key ∨ k ∈ list.keys := by
  induction list with
  | nil => simp [writeEntry]
  | cons entry rest ih =>
    rw [writeEntry]
    split
    · rename_i hKey
      simp [hKey]
    · simp [ih, or_left_comm]

theorem nodupKeys_writeEntry (key : ι) (value : α) {list : List (Sigma fun _ : ι => α)} (h : list.NodupKeys) :
    (writeEntry key value list).NodupKeys := by
  induction list with
  | nil => exact List.nodupKeys_singleton _
  | cons entry rest ih =>
    obtain ⟨hHead, hRest⟩ := List.nodupKeys_cons.mp h
    rw [writeEntry]
    split
    · rename_i hKey
      exact List.nodupKeys_cons.mpr ⟨hKey ▸ hHead, hRest⟩
    · rename_i hKey
      refine List.nodupKeys_cons.mpr ⟨?_, ih hRest⟩
      rw [mem_keys_writeEntry]
      exact not_or.mpr ⟨hKey, hHead⟩

theorem dlookup_writeEntry (key k : ι) (value : α) (list : List (Sigma fun _ : ι => α)) :
    (writeEntry key value list).dlookup k = if k = key then some value else list.dlookup k := by
  induction list with
  | nil =>
    rw [writeEntry]
    split
    · rename_i hKey
      rw [hKey, List.dlookup_cons_eq]
    · rename_i hKey
      exact List.dlookup_cons_ne [] (⟨key, value⟩ : Sigma fun _ : ι => α) hKey
  | cons entry rest ih =>
    rw [writeEntry]
    by_cases hEntry : entry.1 = key
    · rw [if_pos hEntry]
      split
      · rename_i hKey
        rw [hKey, List.dlookup_cons_eq]
      · rename_i hKey
        rw [List.dlookup_cons_ne rest (⟨key, value⟩ : Sigma fun _ : ι => α) hKey, List.dlookup_cons_ne rest entry (by rwa [hEntry])]
    · rw [if_neg hEntry]
      by_cases hKey : k = entry.1
      · subst hKey
        rw [List.dlookup_cons_eq, List.dlookup_cons_eq, if_neg hEntry]
      · rw [List.dlookup_cons_ne _ entry hKey, List.dlookup_cons_ne _ entry hKey, ih]

/-- A write that keeps the order in which the keys came. -/
def write (key : ι) (value : α) : AList fun _ : ι => α where
  entries := writeEntry key value entries.entries
  nodupKeys := nodupKeys_writeEntry key value entries.nodupKeys

theorem lookup_write_eq_update (key : ι) (value : α) :
    (fun k => (write entries key value).lookup k) =
      Function.update (fun k => entries.lookup k) key (some value) := by
  funext k
  rw [Function.update_apply]
  exact dlookup_writeEntry key k value entries.entries

theorem keys_write_toFinset (key : ι) (value : α) :
    (write entries key value).keys.toFinset = insert key entries.keys.toFinset := by
  ext k
  simp only [List.mem_toFinset, Finset.mem_insert]
  exact mem_keys_writeEntry key k value entries.entries

end Ordered

section Filter

variable {β : Type*} (f : α → Option β)

/-- The values that `f` keeps, each under its own key. -/
def mapMaybe : AList fun _ : ι => β where
  entries := entries.entries.filterMap fun entry => (f entry.2).map fun value => ⟨entry.1, value⟩
  nodupKeys := by
    rw [List.nodupKeys_iff_pairwise, List.pairwise_filterMap]
    apply (List.nodupKeys_iff_pairwise.mp entries.nodupKeys).imp
    rintro ⟨a, left⟩ ⟨b, right⟩ hNe other hOther another hAnother
    obtain ⟨value, -, rfl⟩ := Option.map_eq_some_iff.mp hOther
    obtain ⟨value, -, rfl⟩ := Option.map_eq_some_iff.mp hAnother
    exact hNe

theorem lookup_mapMaybe (key : ι) : (mapMaybe entries f).lookup key = (entries.lookup key).bind f := by
  ext value
  rw [← Option.mem_def, AList.mem_lookup_iff, Option.bind_eq_some_iff]
  constructor
  · intro hMem
    obtain ⟨⟨other, held⟩, hEntry, hKept⟩ := List.mem_filterMap.mp hMem
    obtain ⟨kept, hEq, hSame⟩ := Option.map_eq_some_iff.mp hKept
    cases hSame
    exact ⟨held, AList.mem_lookup_iff.mpr hEntry, hEq⟩
  · rintro ⟨held, hLookup, hKept⟩
    refine List.mem_filterMap.mpr ⟨⟨key, held⟩, AList.mem_lookup_iff.mp hLookup, ?_⟩
    rw [hKept]
    rfl

end Filter

section Keep

variable (p : ι → α → Bool)

/-- The entries that satisfy `p`. -/
def keep : AList fun _ : ι => α where
  entries := entries.entries.filter fun entry => p entry.1 entry.2
  nodupKeys := entries.nodupKeys.sublist List.filter_sublist

theorem lookup_keep_eq_some {key : ι} {value : α} :
    (keep entries p).lookup key = some value ↔ entries.lookup key = some value ∧ p key value = true := by
  rw [← Option.mem_def, AList.mem_lookup_iff, ← Option.mem_def, AList.mem_lookup_iff]
  exact List.mem_filter

end Keep

end Resurrect.AssocMap
