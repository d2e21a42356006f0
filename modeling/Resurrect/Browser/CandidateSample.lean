import Resurrect.Browser.Scanner
import Resurrect.Foundation.BoundedSample
import Mathlib.Data.Prod.Lex

/-! # The candidate map is a bounded sample

`insertBounded` follows the rules of `IsSample` where every score can be computed:
after any sequence of offers the map holds the identities of least score, each
under its freshest record.
-/

namespace Resurrect.Browser

open Hex Interaction AssocMap BoundedSample

/-- What freshness compares, as one ordered key. -/
def BrowserPeerCandidate.freshness (candidate : BrowserPeerCandidate) : ℕ ×ₗ ℕ ×ₗ ℕ :=
  toLex (candidate.sequence, toLex (candidate.blockNumber, candidate.logIndex))

theorem compareFreshness_pos {left right : BrowserPeerCandidate} :
    0 < compareFreshness left right ↔ right.freshness < left.freshness := by
  simp only [BrowserPeerCandidate.freshness, Prod.Lex.lt_iff, ofLex_toLex, compareFreshness]
  split
  · split <;> omega
  split
  · split <;> omega
  split
  · split <;> omega
  · omega

section Worst

variable {s : String → Nat}

/-- The state of the search for the worst of the keys seen so far. -/
def IsWorst (s : String → Nat) (peerIds : List String) : Option (String × Nat) → Prop
  | none => peerIds = []
  | some (peerId, worstScore) => peerId ∈ peerIds ∧ worstScore = s peerId ∧ ∀ other ∈ peerIds, s other ≤ worstScore

theorem worstOf_concat {score : String → Except String Nat} {peerIds : List String} {peerId : String} :
    worstOf score (peerIds ++ [peerId]) = (do
      let worst ← worstOf score peerIds
      let value ← score peerId
      pure (match worst with
        | none => some (peerId, value)
        | some (held, worstScore) => if worstScore < value then some (peerId, value) else some (held, worstScore))) := by
  rw [worstOf, List.foldlM_append, worstOf]
  refine bind_congr fun worst => ?_
  rw [List.foldlM_cons]
  exact bind_pure _

theorem worstOf_isWorst {score : String → Except String Nat} (hScore : ∀ peerId, score peerId = .ok (s peerId))
    (peerIds : List String) : ∃ worst, worstOf score peerIds = .ok worst ∧ IsWorst s peerIds worst := by
  induction peerIds using List.reverseRecOn with
  | nil => exact ⟨none, rfl, rfl⟩
  | append_singleton peerIds peerId ih =>
    obtain ⟨worst, hWorst, hIs⟩ := ih
    rw [worstOf_concat, hWorst, hScore]
    refine ⟨_, rfl, ?_⟩
    match worst, hIs with
    | none, hIs =>
      obtain rfl : peerIds = [] := hIs
      exact ⟨by simp, rfl, by simp⟩
    | some (held, worstScore), ⟨hMem, hEq, hMax⟩ =>
      dsimp only
      split
      · rename_i hLt
        refine ⟨by simp, rfl, fun other hOther => ?_⟩
        obtain hOther | hOther := List.mem_append.mp hOther
        · exact (hMax other hOther).trans hLt.le
        · rw [List.mem_singleton.mp hOther]
      · rename_i hLt
        refine ⟨by simp [hMem], hEq, fun other hOther => ?_⟩
        obtain hOther | hOther := List.mem_append.mp hOther
        · exact hMax other hOther
        · rw [List.mem_singleton.mp hOther]
          exact not_lt.mp hLt

end Worst

section Sample

variable {keccak256 : Bytes → Core.B256} {«namespace» headHash : String} {s : String → Nat} {cap : Nat}
  {store : Candidates} {offers : List BrowserPeerCandidate}

/-- The sample a map of candidates stands for. -/
def Samples (cap : Nat) (s : String → Nat) (offers : List BrowserPeerCandidate) (store : Candidates) : Prop :=
  IsSample BrowserPeerCandidate.peerId BrowserPeerCandidate.freshness cap s offers store.keys.toFinset
    fun peerId => store.lookup peerId

theorem samples_empty : Samples cap s [] ∅ := by
  have hLookup : (fun peerId : String => (∅ : Candidates).lookup peerId) = fun _ => none := by
    funext peerId
    exact AList.lookup_empty peerId
  rw [Samples, hLookup]
  exact IsSample.empty

theorem samples_write {candidate : BrowserPeerCandidate} : Samples cap s offers (write store candidate.peerId candidate) ↔
    IsSample BrowserPeerCandidate.peerId BrowserPeerCandidate.freshness cap s offers
      (insert candidate.peerId store.keys.toFinset)
      (Function.update (fun peerId => store.lookup peerId) candidate.peerId (some candidate)) := by
  rw [Samples, keys_write_toFinset, lookup_write_eq_update]

theorem samples_insertBounded (hScore : ∀ peerId, score keccak256 «namespace» headHash peerId = .ok (s peerId))
    (hCap : 0 < cap) (h : Samples cap s offers store) (candidate : BrowserPeerCandidate) :
    ∃ after, insertBounded keccak256 store candidate cap «namespace» headHash = .ok after ∧
      Samples cap s (offers ++ [candidate]) after := by
  rw [insertBounded]
  split
  · rename_i existing hExisting
    have hKey : candidate.peerId ∈ store.keys.toFinset := List.mem_toFinset.mpr (mem_keys_of_lookup hExisting)
    split
    · rename_i hFresher
      refine ⟨_, rfl, ?_⟩
      rw [samples_write, Finset.insert_eq_of_mem hKey]
      exact h.refresh hKey hExisting (compareFreshness_pos.mp hFresher)
    · rename_i hFresher
      exact ⟨_, rfl, h.stale hKey hExisting (not_lt.mp (mt compareFreshness_pos.mpr hFresher))⟩
  · rename_i hAbsent
    have hKey : candidate.peerId ∉ store.keys.toFinset := by
      rw [List.mem_toFinset, ← AList.mem_keys]
      exact AList.lookup_eq_none.mp hAbsent
    split
    · rename_i hRoom
      refine ⟨_, rfl, ?_⟩
      rw [samples_write]
      exact h.accept hKey (by rwa [card_keys])
    · rename_i hRoom
      have hFull : store.keys.toFinset.card = cap := le_antisymm h.bounded (by rw [card_keys]; exact not_lt.mp hRoom)
      obtain ⟨worst, hWorst, hIs⟩ := worstOf_isWorst hScore store.keys
      rw [hScore, hWorst]
      match worst, hIs with
      | none, hIs =>
        have hNil : store.keys = [] := hIs
        rw [hNil] at hRoom
        exact absurd hCap hRoom
      | some (peerId, worstScore), ⟨hMem, hEq, hMax⟩ =>
        subst hEq
        simp only [← List.mem_toFinset] at hMem hMax
        change ∃ after, (if s candidate.peerId < s peerId then pure (write (store.erase peerId) candidate.peerId candidate)
          else pure store) = Except.ok after ∧ _
        split
        · rename_i hBetter
          refine ⟨_, rfl, ?_⟩
          rw [samples_write, keys_erase_toFinset, lookup_erase_eq_update]
          exact h.evict hKey hFull hMem hMax hBetter
        · rename_i hBetter
          exact ⟨_, rfl, h.reject hKey hFull fun other hOther => (hMax other hOther).trans (not_lt.mp hBetter)⟩

end Sample

section Logs

variable {keccak256 : Bytes → Core.B256}
  {decodeBrowserPeerRecord : String → Nat → Nat → Nat → RecordOptions → Except String BrowserPeerCandidate}
  {descriptor : NetworkDescriptor} {options : ScanOptions} {head : RpcBlock} {s : String → Nat}

def decoded (decodeBrowserPeerRecord : String → Nat → Nat → Nat → RecordOptions → Except String BrowserPeerCandidate)
    (descriptor : NetworkDescriptor) (options : ScanOptions) (headTimestamp : Nat) (logs : List RpcLog) :
    List BrowserPeerCandidate :=
  logs.filterMap fun log => (decodeLog decodeBrowserPeerRecord descriptor options headTimestamp log).toOption

def undecoded (decodeBrowserPeerRecord : String → Nat → Nat → Nat → RecordOptions → Except String BrowserPeerCandidate)
    (descriptor : NetworkDescriptor) (options : ScanOptions) (headTimestamp : Nat) (logs : List RpcLog) : Nat :=
  logs.countP fun log => (decodeLog decodeBrowserPeerRecord descriptor options headTimestamp log).toOption.isNone

/-- The logs of a chunk are counted, and what decodes of them is offered to the map. -/
theorem foldl_processLog
    (hScore : ∀ peerId, score keccak256 descriptor.namespace head.hash peerId = .ok (s peerId))
    (hCap : 0 < (options.maxCandidates.getD 256).toNat) {offers : List BrowserPeerCandidate} (logs : List RpcLog)
    (progress : LogProgress) (h : Samples (options.maxCandidates.getD 256).toNat s offers progress.candidates) :
    ∃ store, logs.foldl (processLog keccak256 decodeBrowserPeerRecord descriptor options head) progress =
        ⟨progress.logsProcessed + logs.length, progress.recordsRejected +
          undecoded decodeBrowserPeerRecord descriptor options (bigInt head.timestamp) logs, store⟩ ∧
      Samples (options.maxCandidates.getD 256).toNat s
        (offers ++ decoded decodeBrowserPeerRecord descriptor options (bigInt head.timestamp) logs) store := by
  induction logs generalizing progress offers with
  | nil => exact ⟨progress.candidates, rfl, by simpa [decoded] using h⟩
  | cons log rest ih =>
    rw [List.foldl_cons]
    cases hLog : decodeLog decodeBrowserPeerRecord descriptor options (bigInt head.timestamp) log with
    | ok candidate =>
      obtain ⟨after, hInsert, hSamples⟩ := samples_insertBounded hScore hCap h candidate
      have hStep : processLog keccak256 decodeBrowserPeerRecord descriptor options head progress log =
          ⟨progress.logsProcessed + 1, progress.recordsRejected, after⟩ := by
        have hOffer : (Except.ok candidate >>= fun candidate => insertBounded keccak256 progress.candidates candidate
            (options.maxCandidates.getD 256).toNat descriptor.namespace head.hash) = .ok after := hInsert
        rw [processLog, hLog, hOffer]
      rw [hStep]
      obtain ⟨store, hRest, hStore⟩ := ih ⟨progress.logsProcessed + 1, progress.recordsRejected, after⟩ hSamples
      refine ⟨store, ?_, ?_⟩
      · rw [hRest]
        simp only [undecoded, List.countP_cons, hLog, Except.toOption, Option.isNone_some, List.length_cons,
          Bool.false_eq_true, if_false]
        congr 1
        omega
      · rw [decoded, List.filterMap_cons, hLog]
        rwa [List.append_assoc] at hStore
    | error message =>
      have hStep : processLog keccak256 decodeBrowserPeerRecord descriptor options head progress log =
          ⟨progress.logsProcessed + 1, progress.recordsRejected + 1, progress.candidates⟩ := by
        rw [processLog, hLog]
        rfl
      rw [hStep]
      obtain ⟨store, hRest, hStore⟩ := ih ⟨progress.logsProcessed + 1, progress.recordsRejected + 1, progress.candidates⟩ h
      refine ⟨store, ?_, ?_⟩
      · rw [hRest]
        simp only [undecoded, List.countP_cons, hLog, Except.toOption, Option.isNone_none, List.length_cons, if_true]
        congr 1 <;> omega
      · rw [decoded, List.filterMap_cons, hLog]
        exact hStore

end Logs

end Resurrect.Browser
