import Resurrect.Ethereum.ScanLogs

/-! # A scan read off its answers

Whatever the provider, the candidates of a report are a function of the answers
the scan got: the head it settled on, and the logs it was given, up to the cap.
-/

namespace Resurrect.Ethereum

open Resurrect.Core Interaction

def v1Constants : RegistryConstants := ⟨resurrectVersion, maxTtlSeconds, 4096⟩

theorem verifyConstants_eq_ok {constants : RegistryConstants} {descriptor : NetworkDescriptor}
    (h : verifyConstants constants descriptor = .ok ()) : constants = v1Constants := by
  rw [verifyConstants] at h
  split at h
  · cases h
  · rename_i hConstants
    simp only [not_or, not_not] at hConstants
    obtain ⟨hVersion, hTtl, -, hBytes⟩ := hConstants
    obtain ⟨version, maxTtl, maxRecordBytes⟩ := constants
    have hBytes' : maxRecordBytes = 4096 := UInt32.toNat_inj.mp hBytes
    rw [v1Constants, ← hVersion, ← hTtl, hBytes']

def logsOf : Event RegistryProvider → List Announcement
  | ⟨.announcements .., .ok logs⟩ => logs
  | _ => []

/-- A block answered for anything but the latest one. -/
def headOf : Event RegistryProvider → Option BlockInfo
  | ⟨.block .latest, _⟩ => none
  | ⟨.block _, .ok block⟩ => block
  | _ => none

def answeredLogs (trace : List (Event RegistryProvider)) : List Announcement := trace.flatMap logsOf

def scannedHead (trace : List (Event RegistryProvider)) : Option BlockInfo := trace.findSome? headOf

theorem answeredLogs_append (trace more : List (Event RegistryProvider)) :
    answeredLogs (trace ++ more) = answeredLogs trace ++ answeredLogs more := List.flatMap_append

theorem scannedHead_append (trace more : List (Event RegistryProvider)) :
    scannedHead (trace ++ more) = (scannedHead trace).or (scannedHead more) := List.findSome?_append

section Head

variable {trace : List (Event RegistryProvider)} {head : BlockInfo} {self : RegistryScanner}

theorem scannedHead_taggedBlock {reference : BlockReference} (hLatest : reference ≠ .latest)
    {answer : Option BlockInfo} (h : Returns (taggedBlock reference) trace answer) :
    scannedHead trace = answer := by
  rw [taggedBlock] at h
  obtain ⟨first, answered, second, rfl, hAsk, hRest⟩ := returns_bind.mp h
  rw [returns_lift, RegistryProvider.runs_block] at hAsk
  split at hRest
  · obtain ⟨rfl, rfl⟩ := returns_pure.mp hRest
    rw [hAsk]
    cases reference <;> first | rfl | exact absurd rfl hLatest
  · obtain ⟨rfl, rfl⟩ := returns_pure.mp hRest
    rw [hAsk]
    cases reference <;> rfl
  · obtain ⟨rfl, rfl⟩ := returns_pure.mp hRest
    rw [hAsk]
    cases reference <;> rfl
  · exact absurd hRest returns_throw

theorem scannedHead_fallbackHead (h : Returns self.fallbackHead trace head) : scannedHead trace = some head := by
  rw [RegistryScanner.fallbackHead] at h
  obtain ⟨first, latest, second, rfl, hLatest, hHead⟩ := returns_bind.mp h
  rw [returns_requiredBlock.mp hLatest, returns_requiredBlock.mp hHead]
  rfl

theorem scannedHead_confirmedHead (h : Returns self.confirmedHead trace head) :
    scannedHead trace = some head := by
  rw [RegistryScanner.confirmedHead] at h
  split at h
  · obtain ⟨first, finalized, rest, rfl, hFinalized, hRest⟩ := returns_bind.mp h
    rw [scannedHead_append, scannedHead_taggedBlock (by rintro ⟨⟩) hFinalized]
    cases finalized with
    | some block =>
      obtain ⟨rfl, rfl⟩ := returns_pure.mp hRest
      rfl
    | none =>
      obtain ⟨second, safe, third, rfl, hSafe, hRest⟩ := returns_bind.mp hRest
      rw [Option.none_or, scannedHead_append, scannedHead_taggedBlock (by rintro ⟨⟩) hSafe]
      cases safe with
      | some block =>
        obtain ⟨rfl, rfl⟩ := returns_pure.mp hRest
        rfl
      | none => rw [Option.none_or, scannedHead_fallbackHead hRest]
  · exact scannedHead_fallbackHead h

end Head

section Prelude

variable {self : RegistryScanner} {descriptor : NetworkDescriptor} {previous : Option ScanCheckpoint}
  {constants : RegistryConstants} {head : BlockInfo} {startBlock : UInt64} {reorgDetected : Bool}
  {before : List (Event RegistryProvider)}

theorem ScanPrelude.scannedHead
    (h : ScanPrelude self descriptor previous constants head startBlock reorgDetected before) :
    scannedHead before = some head := by
  obtain ⟨headTrace, reorgTrace, searchTrace, rfl, hHead, -, -⟩ := h.runs
  change Ethereum.scannedHead (headTrace ++ (reorgTrace ++ searchTrace)) = some head
  rw [scannedHead_append, scannedHead_confirmedHead hHead, Option.some_or]

theorem ScanPrelude.answeredLogs
    (h : ScanPrelude self descriptor previous constants head startBlock reorgDetected before) :
    answeredLogs before = [] := by
  apply List.flatMap_eq_nil_iff.mpr
  intro event hMem
  obtain ⟨query, answer⟩ := event
  obtain hQuery | ⟨address, hQuery⟩ | ⟨reference, hQuery⟩ := h.query_eq hMem
  · obtain rfl : query = .chainId := hQuery
    rfl
  · obtain rfl : query = .registryConstants address := hQuery
    rfl
  · obtain rfl : query = .block reference := hQuery
    rfl

end Prelude

section Logs

variable {keccak256 : Bytes → B256} {self : RegistryScanner} {descriptor : NetworkDescriptor}
  {constants : RegistryConstants} {head : BlockInfo} {trace : List (Event RegistryProvider)}

/-- The loop processes the logs it is given, in the order it is given them. -/
theorem scanLoop_eq_answered {minimumChunkSize fromBlock chunkSize : UInt64} {chunkReductions : ℕ}
    {progress : LogProgress} {result : LogProgress × ℕ}
    (h : Returns (self.scanLoop keccak256 descriptor constants head minimumChunkSize fromBlock chunkSize
      chunkReductions progress) trace result) :
    result.1 = plainScan self keccak256 (self.policy descriptor constants head) (answeredLogs trace) progress := by
  fun_induction RegistryScanner.scanLoop self keccak256 descriptor constants head minimumChunkSize
    fromBlock chunkSize chunkReductions progress generalizing trace
  case case1 fromBlock chunkSize chunkReductions progress hRange chunkLast ihNext ihReduced =>
    obtain ⟨query, answer, rest, rfl, hQuery, hRest⟩ := returns_bind.mp h
    rw [returns_lift, RegistryProvider.runs_announcements] at hQuery
    subst hQuery
    split at hRest
    · rename_i announcements
      rw [answeredLogs_append, plainScan_append]
      have hLogs : answeredLogs [⟨.announcements descriptor.registry.address descriptor.namespace fromBlock
          chunkLast, .ok announcements⟩] = announcements := List.append_nil _
      rw [hLogs]
      split at hRest
      · obtain ⟨rfl, rfl⟩ := returns_pure.mp hRest
        exact (plainScan_nil _ _).symm
      · rename_i hEnd
        exact ihNext _ hEnd hRest
    · split at hRest
      · rename_i hChunk
        rw [answeredLogs_append]
        exact ihReduced hChunk hRest
      · exact absurd hRest returns_throw
    · exact absurd hRest returns_throw
  case case2 =>
    obtain ⟨rfl, rfl⟩ := returns_pure.mp h
    exact (plainScan_nil _ _).symm

def scanOffers (scanner : RegistryScanner) (descriptor : NetworkDescriptor) (head : BlockInfo)
    (trace : List (Event RegistryProvider)) : List PeerCandidate :=
  accepted scanner.codecs (scanner.policy descriptor v1Constants head)
    ((answeredLogs trace).take scanner.config.maxLogsPerScan)

def scanStore (keccak256 : Bytes → B256) (scanner : RegistryScanner) (descriptor : NetworkDescriptor)
    (localNodeId : Bytes) (head : BlockInfo) : CandidateStore :=
  CandidateStore.new ⟨scanner.config.maxCandidates,
    RegistryScanner.samplingSeed keccak256 localNodeId head.hash descriptor.namespace.bytes⟩

theorem scan_candidates {localNodeId : Bytes} {previous : Option ScanCheckpoint} {report : ScanReport}
    (h : Returns (self.scan keccak256 descriptor localNodeId previous) trace report) :
    scannedHead trace = some report.head ∧
    report.candidates = ((scanStore keccak256 self descriptor localNodeId report.head).insertAll keccak256
      (scanOffers self descriptor report.head trace)).ranked keccak256 := by
  obtain ⟨constants, before, logsTrace, scanned, rfl, hPrelude, hLogs, hReport⟩ := returns_scan h
  have hHead := hPrelude.scannedHead
  obtain rfl := verifyConstants_eq_ok hPrelude.conforms
  refine ⟨by rw [scannedHead_append, hHead, Option.some_or], ?_⟩
  rw [RegistryScanner.scanLogs] at hLogs
  obtain ⟨loopTrace, ⟨progress, chunkReductions⟩, rest, rfl, hLoop, hRest⟩ := returns_bind.mp hLogs
  obtain ⟨rfl, rfl⟩ := returns_pure.mp hRest
  have hPlain := scanLoop_eq_answered hLoop
  rw [plainScan, foldl_processAnnouncement, Nat.sub_zero] at hPlain
  obtain rfl : progress = _ := hPlain
  rw [scanOffers, answeredLogs_append, hPrelude.answeredLogs, List.nil_append, List.append_nil, hReport]
  rfl

end Logs

end Resurrect.Ethereum
