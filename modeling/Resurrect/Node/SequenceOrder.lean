import Resurrect.Node.RegistryDiscovery
import Resurrect.Core.StoreSample
import Resurrect.Ethereum.ScanAnswers

/-! # Sequences from one call to the next

Within one scan the freshest record of an identity wins. From scan to scan
nothing is carried over, so the sequence of an identity can go back exactly when
the later scan is no longer given a live record as new as one the earlier scan had.
-/

namespace Resurrect.Node

open Resurrect.Core Interaction Ethereum Bootstrap

def providerOf : Event DiscoveryIO → Option (Event RegistryProvider)
  | ⟨.provider query, answer⟩ => some ⟨query, answer⟩
  | _ => none

def providerTrace (trace : List (Event DiscoveryIO)) : List (Event RegistryProvider) :=
  trace.filterMap providerOf

theorem providerTrace_map (inner : List (Event RegistryProvider)) :
    providerTrace (inner.map providerPart.event) = inner := by
  induction inner with
  | nil => rfl
  | cons event rest ih => exact congrArg (event :: ·) ih

section Runs

variable {keccak256 : Bytes → B256} {discovery : RegistryDiscovery} {state next : DiscoveryState}

theorem discover_eq_ok {ns : Namespace} {trace : List (Event DiscoveryIO)} {candidates : List PeerCandidate}
    (h : (discovery.discover keccak256 ns state).Runs trace (.ok candidates, next)) :
    ∃ report, Returns (discovery.scanner.scan keccak256 discovery.descriptor discovery.localNodeId
      state.checkpoint) (providerTrace trace) report ∧ candidates = report.candidates := by
  rw [RegistryDiscovery.discover] at h
  split at h
  · cases h.2
  · obtain ⟨first, scanned, second, rfl, hScan, hRest⟩ := Prog.runs_bind.mp h
    obtain ⟨inner, rfl, hInner⟩ := providerPart.runs_lift.mp hScan
    cases scanned with
    | error error => cases hRest.2
    | ok report =>
      have hTrace : ∀ rest, providerTrace rest = [] →
          providerTrace (inner.map providerPart.event ++ rest) = inner := fun rest hNone => by
        rw [providerTrace, List.filterMap_append]
        exact (congrArg₂ _ (providerTrace_map inner) hNone).trans (List.append_nil inner)
      dsimp only at hRest
      split at hRest
      · obtain ⟨answer, rest, rfl, rfl, hResult⟩ := Prog.runs_ask_bind.mp hRest
        obtain ⟨hCandidates, -⟩ := Prod.mk.inj hResult
        exact ⟨report, by rwa [hTrace _ rfl], Except.ok.inj hCandidates⟩
      · obtain ⟨rfl, hResult⟩ := hRest
        obtain ⟨hCandidates, -⟩ := Prod.mk.inj hResult
        exact ⟨report, by rwa [hTrace _ rfl], Except.ok.inj hCandidates⟩

end Runs

namespace Call

variable (keccak256 : Bytes → B256) (discovery : RegistryDiscovery)

def Succeeded (self : Call) : Prop := ∃ candidates, self.result = .ok candidates

def offers (self : Call) (head : BlockInfo) : List PeerCandidate :=
  scanOffers discovery.scanner discovery.descriptor head (providerTrace self.trace)

def sampling (head : BlockInfo) : CandidateStoreConfig :=
  ⟨discovery.scannerConfig.maxCandidates,
    RegistryScanner.samplingSeed keccak256 discovery.localNodeId head.hash discovery.descriptor.namespace.bytes⟩

/-- Every identity drawn by both calls is offered again at least as new as it was. -/
def KeepsUp (self later : Call) : Prop :=
  ∀ head head', scannedHead (providerTrace self.trace) = some head →
    scannedHead (providerTrace later.trace) = some head' → ∀ identity,
    CandidateStore.Drawn keccak256 (sampling keccak256 discovery head) (self.offers discovery head) identity →
    CandidateStore.Drawn keccak256 (sampling keccak256 discovery head') (later.offers discovery head') identity →
    ∀ offer ∈ self.offers discovery head, offer.identityKey = identity →
      ∃ renewed ∈ later.offers discovery head', renewed.identityKey = identity ∧
        offer.sequence ≤ renewed.sequence

/-- No identity comes back with a lower sequence. -/
def NeverBackwards (self later : Call) : Prop :=
  ∀ candidates candidates', self.result = .ok candidates → later.result = .ok candidates' →
    ∀ a ∈ candidates, ∀ b ∈ candidates', a.identityKey = b.identityKey → a.sequence ≤ b.sequence

/-- No two identities given to a call share a score. -/
def Untied (self : Call) : Prop :=
  ∀ head, scannedHead (providerTrace self.trace) = some head →
    ∀ a ∈ self.offers discovery head, ∀ b ∈ self.offers discovery head,
      (CandidateStore.new (sampling keccak256 discovery head)).score keccak256 a.identityKey =
        (CandidateStore.new (sampling keccak256 discovery head)).score keccak256 b.identityKey →
      a.identityKey = b.identityKey

def DrawsFrom (self : Call) : Prop :=
  ∀ candidates, self.result = .ok candidates → ∃ head, scannedHead (providerTrace self.trace) = some head ∧
    candidates = ((CandidateStore.new (sampling keccak256 discovery head)).insertAll keccak256
      (self.offers discovery head)).ranked keccak256

end Call

section Order

variable {keccak256 : Bytes → B256} {discovery : RegistryDiscovery} {state : DiscoveryState}
  {calls : List Call} {earlier later : Call}

theorem Session.drawsFrom (h : Session keccak256 discovery state calls) :
    ∀ call ∈ calls, call.DrawsFrom keccak256 discovery := by
  induction h with
  | nil => simp
  | @cons state next call calls hCall hRest ih =>
    intro other hMem
    obtain rfl | hMem := List.mem_cons.mp hMem
    · intro candidates hResult
      rw [hResult] at hCall
      obtain ⟨report, hScan, rfl⟩ := discover_eq_ok hCall
      obtain ⟨hHead, hCandidates⟩ := scan_candidates hScan
      exact ⟨report.head, hHead, hCandidates⟩
    · exact ih other hMem

theorem neverBackwards_of_keepsUp (hEarlier : earlier.DrawsFrom keccak256 discovery)
    (hLater : later.DrawsFrom keccak256 discovery)
    (h : earlier.Succeeded → later.Succeeded → earlier.KeepsUp keccak256 discovery later) :
    earlier.NeverBackwards later := by
  intro candidates candidates' hResult hResult' a ha b hb hIdent
  obtain ⟨head, hHead, rfl⟩ := hEarlier candidates hResult
  obtain ⟨head', hHead', rfl⟩ := hLater candidates' hResult'
  have hDrawn := CandidateStore.drawn_of_mem_ranked ha
  have hDrawn' := CandidateStore.drawn_of_mem_ranked hb
  rw [← hIdent] at hDrawn'
  obtain ⟨renewed, hRenewed, hSame, hLe⟩ := h ⟨_, hResult⟩ ⟨_, hResult'⟩ head head' hHead hHead' a.identityKey
    hDrawn hDrawn' a (CandidateStore.greatest_of_mem_ranked ha).1 rfl
  have hGreatest := (CandidateStore.greatest_of_mem_ranked hb).2 renewed hRenewed (hSame.trans hIdent)
  rw [UInt64.le_iff_toNat_le] at hLe ⊢
  exact hLe.trans hGreatest

theorem keepsUp_of_neverBackwards (hEarlier : earlier.DrawsFrom keccak256 discovery)
    (hLater : later.DrawsFrom keccak256 discovery) (hUntied : earlier.Untied keccak256 discovery)
    (hUntied' : later.Untied keccak256 discovery) (h : earlier.NeverBackwards later)
    (hSucceeded : earlier.Succeeded) (hSucceeded' : later.Succeeded) :
    earlier.KeepsUp keccak256 discovery later := by
  intro head head' hHead hHead' identity hDrawn hDrawn' offer hOffer hIdent
  obtain ⟨candidates, hResult⟩ := hSucceeded
  obtain ⟨candidates', hResult'⟩ := hSucceeded'
  obtain ⟨_, hSome, rfl⟩ := hEarlier candidates hResult
  obtain rfl := Option.some.inj (hSome.symm.trans hHead)
  obtain ⟨_, hSome', rfl⟩ := hLater candidates' hResult'
  obtain rfl := Option.some.inj (hSome'.symm.trans hHead')
  obtain ⟨a, ha, hKey⟩ := CandidateStore.exists_ranked_of_drawn (hUntied _ hHead) hDrawn
  obtain ⟨b, hb, hKey'⟩ := CandidateStore.exists_ranked_of_drawn (hUntied' _ hHead') hDrawn'
  have hLe := h _ _ hResult hResult' a ha b hb (hKey.trans hKey'.symm)
  have hGreatest := (CandidateStore.greatest_of_mem_ranked ha).2 offer hOffer (hIdent.trans hKey.symm)
  refine ⟨b, (CandidateStore.greatest_of_mem_ranked hb).1, hKey', ?_⟩
  rw [UInt64.le_iff_toNat_le] at hLe ⊢
  exact hGreatest.trans hLe

end Order

/-- Over any session, sequences never go back if every later call is given records as new as those
of the earlier ones; where no two identities share a score, only then. -/
theorem sequences_never_go_back (keccak256 : Bytes → B256) (discovery : RegistryDiscovery)
    {state : DiscoveryState} {calls : List Call} (hSession : Session keccak256 discovery state calls) :
    (calls.Pairwise (fun earlier later => earlier.Succeeded → later.Succeeded →
      earlier.KeepsUp keccak256 discovery later) → calls.Pairwise Call.NeverBackwards) ∧
    ((∀ call ∈ calls, call.Untied keccak256 discovery) → calls.Pairwise Call.NeverBackwards →
      calls.Pairwise (fun earlier later => earlier.Succeeded → later.Succeeded →
        earlier.KeepsUp keccak256 discovery later)) := by
  have hDraws := hSession.drawsFrom
  constructor
  · intro h
    exact h.imp_of_mem fun hEarlier hLater => neverBackwards_of_keepsUp (hDraws _ hEarlier) (hDraws _ hLater)
  · intro hUntied h
    exact h.imp_of_mem fun hEarlier hLater => keepsUp_of_neverBackwards (hDraws _ hEarlier) (hDraws _ hLater)
      (hUntied _ hEarlier) (hUntied _ hLater)

/-- keccak256 on the sampling seeds of two heads, and on the one identity scored under them. -/
def renewalKeccak (input : Bytes) : B256 :=
  if input.length = 65 then
    if input.getD 32 0 = 100 then 0x2702812d4241dd123d192e2fa24ab8713ffb7ac20bc933398db88534f2ffbb8f
    else 0xdc18fc5e8d27404cc50e44b2f46080c7c8a29731f9150b3fe61369772e8ee901
  else if input.head? = some 0x27 then 0x3bb45d1dbe68699f3b1867a3c606e29931376a1856c108ffb2813d88dabbb59c
  else 0x15328a3b09a2afc6bb1554a7710bb0eaf8eda3b5426c5a2d42dabc6ace7529c4

def cachedDiscovery : RegistryDiscovery where
  descriptor := developmentDescriptor
  codecs := CodecRegistry.new.register twoByteCodec
  scannerConfig := developmentConfig
  localNodeId := [1]
  hasCache := true

def renewalLog (block validUntil : UInt64) (raw : Bytes) : Announcement where
  «namespace» := developmentDescriptor.namespace
  recordType := recordTypeLibp2p
  validUntil
  peerRecord := raw
  blockNumber := block
  logIndex := 0
  blockHash := none

/-- A newer record announced for six days, and an older one replayed for ninety. -/
def replayedLogs : List Announcement :=
  [renewalLog 95 (101 * 86400) [1, 8], renewalLog 96 (186 * 86400) [1, 7]]

def scannedCandidate (log : Announcement) (sequence : UInt64) : PeerCandidate where
  recordType := recordTypeLibp2p
  peerId := [1]
  sequence
  endpoints := [⟨"/ip4/8.8.8.8/tcp/4001"⟩]
  rawSignedRecord := log.peerRecord
  expiresAt := log.validUntil
  source := .resurrectRegistry
  announcementBlock := some log.blockNumber
  announcementLogIndex := some log.logIndex

def cachedCall (answers : List (Event RegistryProvider)) (candidate : PeerCandidate) : Call where
  «namespace» := developmentDescriptor.namespace
  trace := answers.map providerPart.event ++ [⟨.storeVerified developmentDescriptor.namespace [candidate], .ok ()⟩]
  result := .ok [candidate]

def firstCall : Call :=
  cachedCall (dailyAnswers none 100 10 [54, 31, 19, 13, 10, 9] replayedLogs)
    (scannedCandidate (renewalLog 95 (101 * 86400) [1, 8]) 8)

def replayedCall : Call :=
  cachedCall (dailyAnswers (some 100) 101 11 [54, 31, 19, 13, 10, 12, 11] replayedLogs)
    (scannedCandidate (renewalLog 96 (186 * 86400) [1, 7]) 7)

def renewedCall : Call :=
  cachedCall (dailyAnswers (some 100) 101 11 [54, 31, 19, 13, 10, 12, 11]
    (replayedLogs ++ [renewalLog 101 (107 * 86400) [1, 9]]))
    (scannedCandidate (renewalLog 101 (107 * 86400) [1, 9]) 9)

def firstState : DiscoveryState := ⟨some ⟨100, (dailyBlock 100).hash⟩, ⟨1, 0, 2, 0, 0, 0⟩⟩

theorem firstCall_runs : (cachedDiscovery.discover renewalKeccak firstCall.namespace .new).Runs firstCall.trace
    (firstCall.result, firstState) := Prog.runs_of_replay (by decide +kernel)

theorem sequence_goes_back : ¬ ∀ calls, Session renewalKeccak cachedDiscovery .new calls →
    calls.Pairwise Call.NeverBackwards := by
  intro h
  have hReplayed : (cachedDiscovery.discover renewalKeccak replayedCall.namespace firstState).Runs
      replayedCall.trace (replayedCall.result, ⟨some ⟨101, (dailyBlock 101).hash⟩, ⟨2, 0, 4, 1, 0, 0⟩⟩) :=
    Prog.runs_of_replay (by decide +kernel)
  have hPair := h [firstCall, replayedCall] (.cons firstCall_runs (.cons hReplayed .nil))
  have hBack := List.pairwise_pair.mp hPair _ _ rfl rfl _ (List.mem_singleton_self _) _ (List.mem_singleton_self _) rfl
  exact absurd hBack (by decide)

theorem sequences_never_go_back_renewed : [firstCall, renewedCall].Pairwise Call.NeverBackwards := by
  have hRenewed : (cachedDiscovery.discover renewalKeccak renewedCall.namespace firstState).Runs
      renewedCall.trace (renewedCall.result, ⟨some ⟨101, (dailyBlock 101).hash⟩, ⟨2, 0, 5, 1, 0, 0⟩⟩) :=
    Prog.runs_of_replay (by decide +kernel)
  apply (sequences_never_go_back renewalKeccak cachedDiscovery (.cons firstCall_runs (.cons hRenewed .nil))).1
  apply List.pairwise_pair.mpr
  intro _ _ head head' hHead hHead' identity _ _ offer hOffer hIdent
  obtain rfl : dailyBlock 100 = head := Option.some.inj ((by decide +kernel : _ = _).symm.trans hHead)
  obtain rfl : dailyBlock 101 = head' := Option.some.inj ((by decide +kernel : _ = _).symm.trans hHead')
  have hNewer : ∀ offer ∈ firstCall.offers cachedDiscovery (dailyBlock 100),
      ∃ renewed ∈ renewedCall.offers cachedDiscovery (dailyBlock 101),
        renewed.identityKey = offer.identityKey ∧ offer.sequence ≤ renewed.sequence := by
    decide
  obtain ⟨renewed, hRenewed, hSame, hLe⟩ := hNewer offer hOffer
  exact ⟨renewed, hRenewed, hSame.trans hIdent, hLe⟩

end Resurrect.Node
