import Resurrect.Node.SequenceOrder

/-! # What a registry source carries from call to call

The checkpoint and the counters of one instance, over any number of calls against
chains that change between them. An observer of the answers can keep them too: a
reorg is counted where the head of the last scan that went through is gone from
the chain the next one saw, and on a chain that only grows there is none.
-/

namespace Resurrect.Node

open Resurrect.Core Interaction Ethereum Bootstrap

/-- The block hashes of a chain as it stands during one call. -/
abbrev Headers := UInt64 → Option B256

/-- An answered header is the chain's, and is the one asked for. -/
def Headers.Agrees (headers : Headers) : Event RegistryProvider → Prop
  | ⟨.block (.number number), .ok none⟩ => headers number = none
  | ⟨.block (.number number), .ok (some info)⟩ => info.number = number ∧ headers number = some info.hash
  | ⟨.block _, .ok (some info)⟩ => headers info.number = some info.hash
  | _ => True

instance (headers : Headers) : DecidablePred headers.Agrees
  | ⟨.block (.number number), .ok none⟩ => inferInstanceAs (Decidable (headers number = none))
  | ⟨.block (.number number), .ok (some info)⟩ =>
      inferInstanceAs (Decidable (info.number = number ∧ headers number = some info.hash))
  | ⟨.block .latest, .ok (some info)⟩ => inferInstanceAs (Decidable (headers info.number = some info.hash))
  | ⟨.block .safe, .ok (some info)⟩ => inferInstanceAs (Decidable (headers info.number = some info.hash))
  | ⟨.block .finalized, .ok (some info)⟩ => inferInstanceAs (Decidable (headers info.number = some info.hash))
  | ⟨.block .latest, .ok none⟩ => isTrue trivial
  | ⟨.block .safe, .ok none⟩ => isTrue trivial
  | ⟨.block .finalized, .ok none⟩ => isTrue trivial
  | ⟨.block (.number _), .error _⟩ => isTrue trivial
  | ⟨.block .latest, .error _⟩ => isTrue trivial
  | ⟨.block .safe, .error _⟩ => isTrue trivial
  | ⟨.block .finalized, .error _⟩ => isTrue trivial
  | ⟨.chainId, _⟩ => isTrue trivial
  | ⟨.registryConstants _, _⟩ => isTrue trivial
  | ⟨.announcements .., _⟩ => isTrue trivial
  | ⟨.announce .., _⟩ => isTrue trivial

/-- The headers a call was given are those of one chain. -/
def Headers.Shown (headers : Headers) (trace : List (Event RegistryProvider)) : Prop := ∀ event ∈ trace,
    headers.Agrees event

/-- The later chain has every block of the earlier one. -/
def Headers.Extends (later earlier : Headers) : Prop := ∀ number hash, earlier number = some hash →
    later number = some hash

/-- The block of the checkpoint is not in the chain. -/
def Headers.Lost (headers : Headers) (checkpoint : Option ScanCheckpoint) : Prop :=
  ∃ previous ∈ checkpoint, headers previous.number ≠ some previous.hash

instance (headers : Headers) (checkpoint : Option ScanCheckpoint) : Decidable (headers.Lost checkpoint) :=
  inferInstanceAs (Decidable (∃ previous ∈ checkpoint, _))

section Scan

variable {keccak256 : Bytes → B256} {self : RegistryScanner} {descriptor : NetworkDescriptor} {localNodeId : Bytes}
  {previous : Option ScanCheckpoint} {headers : Headers} {trace : List (Event RegistryProvider)}

theorem detectReorg_eq {detected : Bool} (h : Returns (detectReorg previous) trace detected)
    (hShown : headers.Shown trace) : detected = decide (headers.Lost previous) := by
  cases previous with
  | none =>
    obtain ⟨-, rfl⟩ := returns_pure.mp h
    exact (decide_eq_false fun ⟨_, hMem, _⟩ => by cases hMem).symm
  | some previous =>
    obtain ⟨first, answer, second, rfl, hAsk, hRest⟩ := returns_bind.mp h
    rw [returns_attempt, RegistryProvider.runs_block] at hAsk
    have hAgrees : headers.Agrees ⟨.block (.number previous.number), .ok answer⟩ := hShown _ (by simp [hAsk])
    have hHash : answer.map BlockInfo.hash = headers previous.number := by
      cases answer with
      | none => exact hAgrees.symm
      | some info => exact hAgrees.2.symm
    have hLost : headers.Lost (some previous) ↔ answer.map BlockInfo.hash ≠ some previous.hash := by
      rw [hHash]
      exact ⟨fun ⟨_, hMem, hGone⟩ => Option.some.inj hMem ▸ hGone, fun hGone => ⟨previous, rfl, hGone⟩⟩
    rw [decide_eq_decide.mpr hLost]
    cases answer with
    | none =>
      obtain ⟨-, rfl⟩ := returns_pure.mp hRest
      rfl
    | some block =>
      obtain ⟨-, rfl⟩ := returns_pure.mp hRest
      rw [Bool.eq_iff_iff, bne_iff_ne, decide_eq_true_eq, Option.map_some]
      exact not_congr (Option.some_inj).symm

/-- The numbers in a report, told from the answers. -/
theorem scan_counts {report : ScanReport}
    (h : Returns (self.scan keccak256 descriptor localNodeId previous) trace report) :
    report.checkpoint = ⟨report.head.number, report.head.hash⟩ ∧
    report.logsProcessed = ((answeredLogs trace).take self.config.maxLogsPerScan).length ∧
    report.recordsRejected = rejections self.codecs (self.policy descriptor v1Constants report.head)
      ((answeredLogs trace).take self.config.maxLogsPerScan) := by
  obtain ⟨constants, before, logsTrace, scanned, rfl, hPrelude, hLogs, hReport⟩ := returns_scan h
  obtain rfl := verifyConstants_eq_ok hPrelude.conforms
  rw [RegistryScanner.scanLogs] at hLogs
  obtain ⟨loopTrace, ⟨progress, chunkReductions⟩, rest, rfl, hLoop, hRest⟩ := returns_bind.mp hLogs
  obtain ⟨rfl, rfl⟩ := returns_pure.mp hRest
  have hPlain := scanLoop_eq_answered hLoop
  rw [plainScan, foldl_processAnnouncement, Nat.sub_zero] at hPlain
  obtain rfl : progress = _ := hPlain
  rw [answeredLogs_append, hPrelude.answeredLogs, List.nil_append, List.append_nil, hReport]
  exact ⟨rfl, Nat.zero_add _, Nat.zero_add _⟩

theorem reorgDetected_eq {report : ScanReport}
    (h : Returns (self.scan keccak256 descriptor localNodeId previous) trace report) (hShown : headers.Shown trace) :
    report.reorgDetected = decide (headers.Lost previous) := by
  obtain ⟨constants, before, logsTrace, scanned, rfl, hPrelude, -, -⟩ := returns_scan h
  obtain ⟨headTrace, reorgTrace, searchTrace, rfl, -, hReorg, -⟩ := hPrelude.runs
  exact detectReorg_eq hReorg fun event hMem => hShown event (by simp [hMem])

theorem headers_scannedHead {head : BlockInfo} (hShown : headers.Shown trace) (h : scannedHead trace = some head) :
    headers head.number = some head.hash := by
  obtain ⟨⟨query, answer⟩, hMem, hHead⟩ := List.exists_of_findSome?_eq_some h
  have hAgrees := hShown _ hMem
  cases query with
  | block reference =>
    obtain error | block := answer
    · cases reference <;> cases hHead
    cases reference with
    | latest => cases hHead
    | number number =>
      obtain rfl : block = some head := hHead
      obtain ⟨hNumber, hHash⟩ := hAgrees
      rw [hNumber, hHash]
    | safe =>
      obtain rfl : block = some head := hHead
      exact hAgrees
    | finalized =>
      obtain rfl : block = some head := hHead
      exact hAgrees
  | _ => cases hHead

end Scan

section Observer

variable (discovery : RegistryDiscovery)

/-- One call as an observer of its answers sees it, who also knows the chain of the call. -/
def DiscoveryState.observed (self : DiscoveryState) (seen : Call × Headers) : DiscoveryState :=
  let logs := (answeredLogs (providerTrace seen.1.trace)).take discovery.scannerConfig.maxLogsPerScan
  match seen.1.result, scannedHead (providerTrace seen.1.trace) with
  | .ok _, some head => {
      checkpoint := some ⟨head.number, head.hash⟩
      telemetry := { self.telemetry with
        scans := self.telemetry.scans + 1
        logsProcessed := self.telemetry.logsProcessed + UInt64.ofNat logs.length
        rejectedRecords := self.telemetry.rejectedRecords + UInt64.ofNat
          (rejections discovery.codecs (discovery.scanner.policy discovery.descriptor v1Constants head) logs)
        reorgs := if seen.2.Lost self.checkpoint then self.telemetry.reorgs + 1 else self.telemetry.reorgs } }
  | _, _ => if seen.1.namespace = discovery.descriptor.namespace then self.failed else self

/-- Calls on one instance, each with the chain as it stands during the call, and what they leave. -/
inductive Watched (keccak256 : Bytes → B256) : DiscoveryState → List (Call × Headers) → DiscoveryState → Prop
  | nil {state : DiscoveryState} : Watched keccak256 state [] state
  | cons {state next last : DiscoveryState} {call : Call} {headers : Headers} {calls : List (Call × Headers)}
      (hCall : (discovery.discover keccak256 call.namespace state).Runs call.trace (call.result, next))
      (hShown : headers.Shown (providerTrace call.trace)) (hRest : Watched keccak256 next calls last) :
      Watched keccak256 state ((call, headers) :: calls) last

end Observer

section Watching

variable {keccak256 : Bytes → B256} {discovery : RegistryDiscovery} {state next : DiscoveryState}

theorem Watched.session {last : DiscoveryState} {calls : List (Call × Headers)}
    (h : Watched discovery keccak256 state calls last) : Session keccak256 discovery state (calls.map Prod.fst) := by
  induction h with
  | nil => exact .nil
  | cons hCall _ _ ih => exact .cons hCall ih

theorem discover_next {call : Call}
    (h : (discovery.discover keccak256 call.namespace state).Runs call.trace (call.result, next)) :
    (call.namespace ≠ discovery.descriptor.namespace ∧ next = state ∧ ∃ error, call.result = .error error) ∨
    (call.namespace = discovery.descriptor.namespace ∧ next = state.failed ∧ ∃ error,
      Throws (discovery.scanner.scan keccak256
      discovery.descriptor discovery.localNodeId state.checkpoint) (providerTrace call.trace) error ∧
        call.result = .error (.discovery error.toString)) ∨
    ∃ report, Returns (discovery.scanner.scan keccak256 discovery.descriptor discovery.localNodeId
      state.checkpoint) (providerTrace call.trace) report ∧ next = state.scanned report ∧
        call.result = .ok report.candidates := by
  rw [RegistryDiscovery.discover] at h
  split at h
  · rename_i hOther
    obtain ⟨-, hResult⟩ := h
    obtain ⟨hError, rfl⟩ := Prod.mk.inj hResult
    exact .inl ⟨hOther, rfl, _, hError⟩
  · rename_i hOwn
    obtain ⟨first, scanned, second, hTrace, hScan, hRest⟩ := Prog.runs_bind.mp h
    obtain ⟨inner, rfl, hInner⟩ := providerPart.runs_lift.mp hScan
    have hProvider : providerTrace second = [] → providerTrace call.trace = inner := by
      intro hNone
      rw [hTrace, providerTrace, List.filterMap_append]
      exact (congrArg₂ _ (providerTrace_map inner) hNone).trans (List.append_nil inner)
    cases scanned with
    | error error =>
      obtain ⟨rfl, hResult⟩ := hRest
      obtain ⟨hError, rfl⟩ := Prod.mk.inj hResult
      exact .inr (.inl ⟨not_not.mp hOwn, rfl, error, by rwa [hProvider rfl], hError⟩)
    | ok report =>
      refine .inr (.inr ⟨report, ?_⟩)
      dsimp only at hRest
      split at hRest
      · obtain ⟨answer, rest, rfl, rfl, hResult⟩ := Prog.runs_ask_bind.mp hRest
        obtain ⟨hOk, rfl⟩ := Prod.mk.inj hResult
        exact ⟨by rwa [hProvider rfl], rfl, hOk⟩
      · obtain ⟨rfl, hResult⟩ := hRest
        obtain ⟨hOk, rfl⟩ := Prod.mk.inj hResult
        exact ⟨by rwa [hProvider rfl], rfl, hOk⟩

/-- A call leaves what its observer expects. -/
theorem observed_of_discover {call : Call} {headers : Headers}
    (h : (discovery.discover keccak256 call.namespace state).Runs call.trace (call.result, next))
    (hShown : headers.Shown (providerTrace call.trace)) : next = state.observed discovery (call, headers) := by
  obtain ⟨hOther, rfl, error, hError⟩ | ⟨hOwn, rfl, error, -, hError⟩ | ⟨report, hScan, rfl, hOk⟩ := discover_next h
  · rw [DiscoveryState.observed, hError]
    exact (if_neg hOther).symm
  · rw [DiscoveryState.observed, hError]
    exact (if_pos hOwn).symm
  · obtain ⟨hHead, -⟩ := scan_candidates hScan
    obtain ⟨hCheckpoint, hLogs, hRejected⟩ := scan_counts hScan
    rw [DiscoveryState.observed, hOk, hHead, DiscoveryState.scanned, hCheckpoint, hLogs, hRejected,
      reorgDetected_eq hScan hShown]
    simp only [decide_eq_true_eq]
    rfl

/-- As long as the chain only grows, no call loses the checkpoint of an earlier one. -/
theorem observed_of_extends {calls : List (Call × Headers)} (hGrows : calls.Pairwise fun earlier later =>
    later.2.Extends earlier.2)
    (hShown : ∀ seen ∈ calls, seen.2.Shown (providerTrace seen.1.trace))
    (hKept : ∀ seen ∈ calls, ¬ seen.2.Lost state.checkpoint) :
    (calls.foldl (DiscoveryState.observed discovery) state).telemetry.reorgs = state.telemetry.reorgs := by
  induction calls generalizing state with
  | nil => rfl
  | cons seen calls ih =>
    obtain ⟨hFirst, hRest⟩ := List.pairwise_cons.mp hGrows
    have hReorgs : (state.observed discovery seen).telemetry.reorgs = state.telemetry.reorgs := by
      have hNone := hKept seen (List.mem_cons_self ..)
      rw [DiscoveryState.observed]
      split
      · exact if_neg hNone
      · split <;> rfl
    rw [List.foldl_cons, ← hReorgs]
    refine ih hRest (fun other hMem => hShown other (List.mem_cons_of_mem _ hMem)) fun other hMem => ?_
    have hStill := hKept other (List.mem_cons_of_mem _ hMem)
    rw [DiscoveryState.observed]
    split
    · rename_i head _ hHead
      rintro ⟨previous, hPrevious, hGone⟩
      obtain rfl := Option.some.inj hPrevious
      exact hGone (hFirst other hMem _ _ (headers_scannedHead (hShown seen (List.mem_cons_self ..)) hHead))
    · split <;> exact hStill

theorem Watched.shown {last : DiscoveryState} {calls : List (Call × Headers)}
    (h : Watched discovery keccak256 state calls last) : ∀ seen ∈ calls, seen.2.Shown (providerTrace seen.1.trace) := by
  induction h with
  | nil => exact fun _ hMem => by cases hMem
  | cons _ hShown _ ih => exact List.forall_mem_cons.mpr ⟨hShown, ih⟩

theorem Watched.eq_foldl {last : DiscoveryState} {calls : List (Call × Headers)}
    (h : Watched discovery keccak256 state calls last) :
    last = calls.foldl (DiscoveryState.observed discovery) state := by
  induction h with
  | nil => rfl
  | cons hCall hShown _ ih => rw [List.foldl_cons, ← observed_of_discover hCall hShown, ih]

/-- Over any calls, against chains that change in between, the checkpoint and the counters are what an observer of the
answers keeps; on a chain that only grows no reorg is counted. -/
theorem counters_observed {last : DiscoveryState} {calls : List (Call × Headers)}
    (h : Watched discovery keccak256 .new calls last) :
    last = calls.foldl (DiscoveryState.observed discovery) .new ∧
      (calls.Pairwise (fun earlier later => later.2.Extends earlier.2) → last.telemetry.reorgs = 0) := by
  refine ⟨h.eq_foldl, fun hGrows => ?_⟩
  rw [h.eq_foldl]
  exact observed_of_extends hGrows h.shown fun _ _ ⟨_, hNone, _⟩ => by cases hNone

end Watching

def dailyHeaders : Headers := fun number => some (dailyBlock number).hash

def forkedBlock : BlockInfo := { dailyBlock 100 with hash := 0xfffff }

def forkedHeaders : Headers := fun number => if number = 100 then some forkedBlock.hash else dailyHeaders number

/-- The head of the first call has been replaced by the time of this one. -/
def forkedCall : Call :=
  cachedCall ((dailyAnswers (some 100) 101 11 [54, 31, 19, 13, 10, 12, 11] replayedLogs).set 4
    ⟨.block (.number 100), .ok (some forkedBlock)⟩) (scannedCandidate (renewalLog 96 (186 * 86400) [1, 7]) 7)

def forkedState : DiscoveryState := ⟨some ⟨101, (dailyBlock 101).hash⟩, ⟨2, 0, 4, 1, 1, 0⟩⟩

theorem counters_observed_forked : forkedState =
    [(firstCall, dailyHeaders), (forkedCall, forkedHeaders)].foldl (DiscoveryState.observed cachedDiscovery) .new := by
  have hForked : (cachedDiscovery.discover renewalKeccak forkedCall.namespace firstState).Runs forkedCall.trace
      (forkedCall.result, forkedState) := Prog.runs_of_replay (by decide +kernel)
  have hFirstShown : dailyHeaders.Shown (providerTrace firstCall.trace) := by
    rw [Headers.Shown]
    decide
  have hForkedShown : forkedHeaders.Shown (providerTrace forkedCall.trace) := by
    rw [Headers.Shown]
    decide
  exact (counters_observed (.cons firstCall_runs hFirstShown (.cons hForked hForkedShown .nil))).1

end Resurrect.Node
