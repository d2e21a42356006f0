import Resurrect.Core.Descriptor
import Resurrect.Core.CandidateStore
import Resurrect.Ethereum.Provider

/-! # The recent-window registry scanner

`RegistryScanner::scan` as a program over a provider: conformance checks, the
confirmed head, the search for the first block of the TTL window, and the
chunked reading of the logs from there to the head.
-/

namespace Resurrect.Ethereum

open Resurrect.Core Interaction Word64

structure ScannerConfig where
  initialChunkSize : UInt64
  minimumChunkSize : UInt64
  maxLogsPerScan : Nat
  maxCandidates : Nat
  maxEndpointsPerRecord : Nat
  fallbackConfirmations : UInt64
  useFinalityTags : Bool
  dialContext : DialContext
  deriving DecidableEq, Repr

structure ScanCheckpoint where
  number : UInt64
  hash : B256
  deriving DecidableEq, Repr

structure ScanReport where
  startBlock : UInt64
  head : BlockInfo
  checkpoint : ScanCheckpoint
  reorgDetected : Bool
  logsProcessed : Nat
  recordsRejected : Nat
  chunkReductions : Nat
  candidates : List PeerCandidate
  deriving DecidableEq, Repr

inductive ScanError where
  | descriptor (message : String)
  | wrongChain (expected actual : U256)
  | registryConstants (constants : RegistryConstants)
  | missingBlock (block : String)
  | deploymentAfterHead (deployment head : UInt64)
  | provider (error : ProviderError)
  deriving DecidableEq, Repr

def RegistryConstants.debug (constants : RegistryConstants) : String :=
  "RegistryConstants \x7b version: " ++ Nat.repr constants.version.toNat ++
    ", max_ttl: " ++ Nat.repr constants.maxTtl.toNat ++
    ", max_record_bytes: " ++ Nat.repr constants.maxRecordBytes.toNat ++ " \x7d"

def ScanError.toString : ScanError → String
  | .descriptor message => "invalid network descriptor: " ++ message
  | .wrongChain expected actual =>
      "provider chain ID " ++ Nat.repr actual.val ++ " does not match descriptor chain ID " ++
        Nat.repr expected.val
  | .registryConstants constants =>
      "deployed registry constants are not Resurrect v1: " ++ constants.debug
  | .missingBlock block => "registry provider returned no " ++ block ++ " block"
  | .deploymentAfterHead deployment head =>
      "registry deployment block " ++ Nat.repr deployment.toNat ++ " is newer than scan head " ++
        Nat.repr head.toNat
  | .provider error => error.toString

abbrev ScanM := ExceptT ScanError (Prog RegistryProvider)

structure RegistryScanner where
  codecs : CodecRegistry
  config : ScannerConfig

def verifyConstants (constants : RegistryConstants) (descriptor : NetworkDescriptor) :
    Except ScanError Unit :=
  if constants.version ≠ resurrectVersion ∨ constants.maxTtl ≠ maxTtlSeconds ∨
      constants.maxTtl ≠ descriptor.registry.maxTtlSeconds ∨
      constants.maxRecordBytes.toNat ≠ defaultMaxRecordBytes then
    .error (.registryConstants constants)
  else .ok ()

def requiredBlock (name : String) (reference : BlockReference) : ScanM BlockInfo := do
  match ← attempt .provider (RegistryProvider.block reference) with
  | some block => pure block
  | none => throw (.missingBlock name)

/-- The block behind a finality tag, where the provider has the tag. -/
def taggedBlock (reference : BlockReference) : ScanM (Option BlockInfo) := do
  match ← ExceptT.lift (RegistryProvider.block reference) with
  | .ok (some block) => pure (some block)
  | .ok none => pure none
  | .error (.unsupported _) => pure none
  | .error error => throw (.provider error)

/-- Bisects for the first block whose timestamp is at least `cutoff`. -/
def searchLoop (cutoff low high : UInt64) : ScanM UInt64 := do
  if h : low < high then
    let middle := low + (high - low) / 2
    let block ← requiredBlock "timestamp-search" (.number middle)
    if block.timestamp < cutoff then searchLoop cutoff (middle + 1) high
    else searchLoop cutoff low middle
  else pure low
termination_by high.toNat - low.toNat
decreasing_by
  · have hMiddle := midpoint_lt h
    rw [toNat_add_one_of_lt hMiddle, toNat_midpoint h]
    rw [UInt64.lt_iff_toNat_lt] at h
    omega
  · have hMiddle := midpoint_lt h
    have hLow := toNat_midpoint h
    omega

def findStartBlock (deploymentBlock head cutoff : UInt64) : ScanM UInt64 :=
  if head ≤ deploymentBlock then pure (min deploymentBlock head)
  else searchLoop cutoff deploymentBlock head

def detectReorg (previous : Option ScanCheckpoint) : ScanM Bool := do
  match previous with
  | none => pure false
  | some previous =>
    match ← attempt .provider (RegistryProvider.block (.number previous.number)) with
    | none => pure true
    | some block => pure (block.hash != previous.hash)

def chunkEnd (fromBlock chunkSize head : UInt64) : UInt64 :=
  min (saturatingAdd fromBlock (saturatingSub chunkSize 1)) head

theorem fromBlock_le_chunkEnd {fromBlock head : UInt64} (chunkSize : UInt64) (h : fromBlock ≤ head) :
    fromBlock.toNat ≤ (chunkEnd fromBlock chunkSize head).toNat := by
  have hMax := fromBlock.toNat_lt
  rw [UInt64.le_iff_toNat_le] at h
  rw [chunkEnd, toNat_min, toNat_saturatingAdd]
  omega

theorem chunkEnd_le (fromBlock chunkSize head : UInt64) :
    (chunkEnd fromBlock chunkSize head).toNat ≤ head.toNat := by
  rw [chunkEnd, toNat_min]
  exact min_le_right _ _

theorem chunkEnd_lt {fromBlock chunkSize head : UInt64} (h : chunkEnd fromBlock chunkSize head ≠ head) :
    (chunkEnd fromBlock chunkSize head).toNat < head.toNat :=
  lt_of_le_of_ne (chunkEnd_le _ _ _) fun hEq => h (UInt64.toNat_inj.mp hEq)

/-- The blocks still to read, and then the chunk size. -/
def remaining (fromBlock chunkSize head : UInt64) : Nat :=
  (head.toNat - fromBlock.toNat) * 2 ^ 64 + chunkSize.toNat

theorem remaining_chunkEnd_lt {fromBlock chunkSize head : UInt64} (h : fromBlock ≤ head)
    (hEnd : chunkEnd fromBlock chunkSize head ≠ head) :
    remaining (chunkEnd fromBlock chunkSize head + 1) chunkSize head < remaining fromBlock chunkSize head := by
  have hFrom := fromBlock_le_chunkEnd chunkSize h
  have hLt := chunkEnd_lt hEnd
  rw [remaining, remaining, toNat_add_one_of_lt hLt]
  omega

theorem remaining_reduced_lt {fromBlock chunkSize minimumChunkSize head : UInt64}
    (h : minimumChunkSize < chunkSize) :
    remaining fromBlock (max (chunkSize / 2) minimumChunkSize) head < remaining fromBlock chunkSize head := by
  rw [UInt64.lt_iff_toNat_lt] at h
  have hTwo : (2 : UInt64).toNat = 2 := rfl
  rw [remaining, remaining, toNat_max, UInt64.toNat_div, hTwo]
  omega

structure LogProgress where
  logsProcessed : Nat
  recordsRejected : Nat
  candidates : CandidateStore

structure LogScanOutcome where
  logsProcessed : Nat
  recordsRejected : Nat
  chunkReductions : Nat
  candidates : List PeerCandidate
  deriving DecidableEq, Repr

namespace RegistryScanner

variable (self : RegistryScanner)

def fallbackHead : ScanM BlockInfo := do
  let latest ← requiredBlock "latest" .latest
  requiredBlock "confirmed" (.number (saturatingSub latest.number self.config.fallbackConfirmations))

def confirmedHead : ScanM BlockInfo := do
  if self.config.useFinalityTags then
    match ← taggedBlock .finalized with
    | some block => pure block
    | none =>
      match ← taggedBlock .safe with
      | some block => pure block
      | none => self.fallbackHead
  else self.fallbackHead

def policy (descriptor : NetworkDescriptor) (constants : RegistryConstants) (head : BlockInfo) :
    AnnouncementPolicy where
  expectedNamespace := descriptor.namespace
  acceptedRecordTypes := descriptor.acceptedRecordTypes
  chainTime := head.timestamp
  maxRecordBytes := constants.maxRecordBytes.toNat
  maxEndpoints := self.config.maxEndpointsPerRecord
  dialContext := self.config.dialContext

section Scored

variable (keccak256 : Bytes → B256)

def samplingSeed (localNodeId : Bytes) (blockHash : B256) (ns : B256) : B256 :=
  keccak256 (localNodeId ++ toBytes32 blockHash ++ toBytes32 ns)

def processAnnouncement (policy : AnnouncementPolicy) (progress : LogProgress)
    (announcement : Announcement) : LogProgress :=
  match self.codecs.validateAnnouncement announcement policy with
  | .ok candidate => { progress with
      logsProcessed := progress.logsProcessed + 1
      candidates := (progress.candidates.insert keccak256 candidate).2 }
  | .error _ => { progress with
      logsProcessed := progress.logsProcessed + 1
      recordsRejected := progress.recordsRejected + 1 }

/-- Reads the logs up to the head in chunks, halving a chunk the provider refuses as too large. -/
def scanLoop (descriptor : NetworkDescriptor) (constants : RegistryConstants) (head : BlockInfo)
    (minimumChunkSize fromBlock chunkSize : UInt64) (chunkReductions : Nat) (progress : LogProgress) :
    ScanM (LogProgress × Nat) := do
  if _h : fromBlock ≤ head.number ∧ progress.logsProcessed < self.config.maxLogsPerScan then
    let toBlock := chunkEnd fromBlock chunkSize head.number
    match ← ExceptT.lift (RegistryProvider.announcements descriptor.registry.address
      descriptor.namespace fromBlock toBlock) with
    | .ok announcements =>
      let progress := (announcements.take (self.config.maxLogsPerScan - progress.logsProcessed)).foldl
        (self.processAnnouncement keccak256 (self.policy descriptor constants head)) progress
      if hTo : toBlock = head.number then pure (progress, chunkReductions)
      else
        scanLoop descriptor constants head minimumChunkSize (toBlock + 1) chunkSize chunkReductions progress
    | .error (.rangeLimit message) =>
      if hChunk : minimumChunkSize < chunkSize then
        scanLoop descriptor constants head minimumChunkSize fromBlock (max (chunkSize / 2) minimumChunkSize)
          (chunkReductions + 1) progress
      else throw (.provider (.rangeLimit message))
    | .error error => throw (.provider error)
  else pure (progress, chunkReductions)
termination_by remaining fromBlock chunkSize head.number
decreasing_by
  · exact remaining_chunkEnd_lt _h.1 hTo
  · exact remaining_reduced_lt hChunk

def scanLogs (descriptor : NetworkDescriptor) (localNodeId : Bytes) (constants : RegistryConstants)
    (startBlock : UInt64) (head : BlockInfo) : ScanM LogScanOutcome := do
  let samplingSeed := samplingSeed keccak256 localNodeId head.hash descriptor.namespace.bytes
  let candidates := CandidateStore.new ⟨self.config.maxCandidates, samplingSeed⟩
  let (progress, chunkReductions) ← self.scanLoop keccak256 descriptor constants head
    (max self.config.minimumChunkSize 1) startBlock (max self.config.initialChunkSize 1) 0
    ⟨0, 0, candidates⟩
  pure ⟨progress.logsProcessed, progress.recordsRejected, chunkReductions,
    progress.candidates.ranked keccak256⟩

def scan (descriptor : NetworkDescriptor) (localNodeId : Bytes) (previous : Option ScanCheckpoint) :
    ScanM ScanReport := do
  match descriptor.validate with
  | .error error => throw (.descriptor error.toString)
  | .ok () =>
    let actualChainId ← attempt .provider RegistryProvider.chainId
    if actualChainId ≠ descriptor.registry.chainId then
      throw (.wrongChain descriptor.registry.chainId actualChainId)
    else
      let constants ← attempt .provider (RegistryProvider.registryConstants descriptor.registry.address)
      match verifyConstants constants descriptor with
      | .error error => throw error
      | .ok () =>
        let head ← self.confirmedHead
        if head.number < descriptor.registry.deploymentBlock then
          throw (.deploymentAfterHead descriptor.registry.deploymentBlock head.number)
        else
          let reorgDetected ← detectReorg previous
          let cutoff := saturatingSub head.timestamp descriptor.registry.maxTtlSeconds.toUInt64
          let startBlock ← findStartBlock descriptor.registry.deploymentBlock head.number cutoff
          let scanned ← self.scanLogs keccak256 descriptor localNodeId constants startBlock head
          pure {
            startBlock := startBlock
            head := head
            checkpoint := ⟨head.number, head.hash⟩
            reorgDetected := reorgDetected
            logsProcessed := scanned.logsProcessed
            recordsRejected := scanned.recordsRejected
            chunkReductions := scanned.chunkReductions
            candidates := scanned.candidates }

end Scored

end RegistryScanner

section Runs

variable {trace history : List (Event RegistryProvider)} {target : ProviderQuery}

theorem returns_requiredBlock {name : String} {reference : BlockReference} {block : BlockInfo} :
    Returns (requiredBlock name reference) trace block ↔ trace = [⟨.block reference, .ok (some block)⟩] := by
  rw [requiredBlock, returns_bind]
  constructor
  · rintro ⟨first, answer, second, rfl, hAsk, hRest⟩
    rw [returns_attempt, RegistryProvider.runs_block] at hAsk
    cases answer with
    | none => exact absurd hRest returns_throw
    | some info =>
      obtain ⟨rfl, rfl⟩ := returns_pure.mp hRest
      rw [hAsk, List.append_nil]
  · rintro rfl
    exact ⟨_, some block, [], (List.append_nil _).symm, returns_attempt.mpr (RegistryProvider.runs_block.mpr rfl),
      returns_pure.mpr ⟨rfl, rfl⟩⟩

theorem invokes_requiredBlock {name : String} {reference : BlockReference} :
    Invokes (requiredBlock name reference) history target ↔ history = [] ∧ target = .block reference := by
  rw [requiredBlock, invokes_bind, invokes_attempt, RegistryProvider.reaches_block, or_iff_left]
  rintro ⟨first, answer, second, -, -, hRest⟩
  cases answer with
  | none => exact invokes_throw hRest
  | some info => exact invokes_pure hRest

theorem returns_taggedBlock {reference : BlockReference} {block : BlockInfo}
    (h : Returns (taggedBlock reference) trace (some block)) :
    trace = [⟨.block reference, .ok (some block)⟩] := by
  rw [taggedBlock, returns_bind] at h
  obtain ⟨first, answer, second, rfl, hAsk, hRest⟩ := h
  rw [returns_lift, RegistryProvider.runs_block] at hAsk
  split at hRest
  · obtain ⟨rfl, hBlock⟩ := returns_pure.mp hRest
    rw [hAsk, hBlock, List.append_nil]
  · cases (returns_pure.mp hRest).2
  · cases (returns_pure.mp hRest).2
  · exact absurd hRest returns_throw

theorem invokes_taggedBlock {reference : BlockReference} :
    Invokes (taggedBlock reference) history target ↔ history = [] ∧ target = .block reference := by
  rw [taggedBlock, invokes_bind, invokes_lift, RegistryProvider.reaches_block, or_iff_left]
  rintro ⟨first, answer, second, -, -, hRest⟩
  split at hRest
  · exact invokes_pure hRest
  · exact invokes_pure hRest
  · exact invokes_pure hRest
  · exact invokes_throw hRest

theorem returns_fallbackHead {self : RegistryScanner} {head : BlockInfo}
    (h : Returns self.fallbackHead trace head) : ∃ number before,
      trace = before ++ [⟨.block (.number number), .ok (some head)⟩] := by
  rw [RegistryScanner.fallbackHead, returns_bind] at h
  obtain ⟨first, latest, second, rfl, -, hHead⟩ := h
  exact ⟨_, first, by rw [returns_requiredBlock.mp hHead]⟩

theorem invokes_fallbackHead {self : RegistryScanner} (h : Invokes self.fallbackHead history target) :
    ∃ reference, target = .block reference := by
  rw [RegistryScanner.fallbackHead, invokes_bind] at h
  obtain h | ⟨first, latest, second, -, -, h⟩ := h
  · exact ⟨_, (invokes_requiredBlock.mp h).2⟩
  · exact ⟨_, (invokes_requiredBlock.mp h).2⟩

theorem returns_confirmedHead {self : RegistryScanner} {head : BlockInfo}
    (h : Returns self.confirmedHead trace head) : ∃ reference before,
      trace = before ++ [⟨.block reference, .ok (some head)⟩] := by
  rw [RegistryScanner.confirmedHead] at h
  split at h
  · obtain ⟨first, finalized, rest, rfl, hFinalized, hRest⟩ := returns_bind.mp h
    cases finalized with
    | some block =>
      obtain ⟨rfl, rfl⟩ := returns_pure.mp hRest
      exact ⟨.finalized, [], by rw [returns_taggedBlock hFinalized, List.append_nil, List.nil_append]⟩
    | none =>
      obtain ⟨second, safe, third, rfl, hSafe, hRest⟩ := returns_bind.mp hRest
      cases safe with
      | some block =>
        obtain ⟨rfl, rfl⟩ := returns_pure.mp hRest
        exact ⟨.safe, first, by rw [returns_taggedBlock hSafe, List.append_nil]⟩
      | none =>
        obtain ⟨number, before, rfl⟩ := returns_fallbackHead hRest
        exact ⟨.number number, first ++ (second ++ before), by simp only [List.append_assoc]⟩
  · obtain ⟨number, before, rfl⟩ := returns_fallbackHead h
    exact ⟨.number number, before, rfl⟩

theorem invokes_confirmedHead {self : RegistryScanner} (h : Invokes self.confirmedHead history target) :
    ∃ reference, target = .block reference := by
  rw [RegistryScanner.confirmedHead] at h
  split at h
  · obtain h | ⟨_, finalized, _, -, -, h⟩ := invokes_bind.mp h
    · exact ⟨_, (invokes_taggedBlock.mp h).2⟩
    · cases finalized with
      | some block => exact absurd h invokes_pure
      | none =>
        obtain h | ⟨_, safe, _, -, -, h⟩ := invokes_bind.mp h
        · exact ⟨_, (invokes_taggedBlock.mp h).2⟩
        · cases safe with
          | some block => exact absurd h invokes_pure
          | none => exact invokes_fallbackHead h
  · exact invokes_fallbackHead h

theorem invokes_detectReorg {previous : Option ScanCheckpoint}
    (h : Invokes (detectReorg previous) history target) : ∃ reference, target = .block reference := by
  rw [detectReorg.eq_def] at h
  cases previous with
  | none => exact absurd h invokes_pure
  | some previous =>
    obtain h | ⟨_, answer, _, -, -, h⟩ := invokes_bind.mp h
    · rw [invokes_attempt, RegistryProvider.reaches_block] at h
      exact ⟨_, h.2⟩
    · cases answer with
      | none => exact absurd h invokes_pure
      | some block => exact absurd h invokes_pure

theorem invokes_searchLoop {cutoff low high : UInt64}
    (h : Invokes (searchLoop cutoff low high) history target) : ∃ reference, target = .block reference := by
  fun_induction searchLoop cutoff low high generalizing history
  case case1 low high hLt middle ihHigh ihLow =>
    obtain h | ⟨_, block, _, -, -, h⟩ := invokes_bind.mp h
    · exact ⟨_, (invokes_requiredBlock.mp h).2⟩
    · split at h
      · exact ihHigh h
      · exact ihLow h
  case case2 => exact absurd h invokes_pure

theorem invokes_findStartBlock {deploymentBlock head cutoff : UInt64}
    (h : Invokes (findStartBlock deploymentBlock head cutoff) history target) :
    ∃ reference, target = .block reference := by
  rw [findStartBlock] at h
  split at h
  · exact absurd h invokes_pure
  · exact invokes_searchLoop h

end Runs

/-- What a scan has gone through by the time it starts to read logs. -/
structure ScanPrelude (scanner : RegistryScanner) (descriptor : NetworkDescriptor)
    (previous : Option ScanCheckpoint) (constants : RegistryConstants) (head : BlockInfo)
    (startBlock : UInt64) (reorgDetected : Bool) (trace : List (Event RegistryProvider)) : Prop where
  valid : descriptor.Valid
  conforms : verifyConstants constants descriptor = .ok ()
  deployed : descriptor.registry.deploymentBlock ≤ head.number
  runs : ∃ headTrace reorgTrace searchTrace, trace =
      ⟨.chainId, .ok descriptor.registry.chainId⟩ ::
      ⟨.registryConstants descriptor.registry.address, .ok constants⟩ ::
      (headTrace ++ (reorgTrace ++ searchTrace)) ∧
    Returns scanner.confirmedHead headTrace head ∧ Returns (detectReorg previous) reorgTrace reorgDetected ∧
    Returns (findStartBlock descriptor.registry.deploymentBlock head.number
      (saturatingSub head.timestamp descriptor.registry.maxTtlSeconds.toUInt64)) searchTrace startBlock

section Scan

variable {keccak256 : Bytes → B256} {self : RegistryScanner} {descriptor : NetworkDescriptor}
  {localNodeId : Bytes} {previous : Option ScanCheckpoint}

theorem scanPrelude_of_runs {constants : RegistryConstants} {head : BlockInfo} {startBlock : UInt64}
    {reorgDetected : Bool} {actual : U256}
    {first second headTrace reorgTrace searchTrace : List (Event RegistryProvider)}
    (hValid : descriptor.validate = .ok ()) (hActual : ¬ actual ≠ descriptor.registry.chainId)
    (hChain : Returns (attempt ScanError.provider RegistryProvider.chainId) first actual)
    (hConstants : Returns (attempt ScanError.provider
      (RegistryProvider.registryConstants descriptor.registry.address)) second constants)
    (hConforms : verifyConstants constants descriptor = .ok ())
    (hHead : Returns self.confirmedHead headTrace head)
    (hDeployed : ¬ head.number < descriptor.registry.deploymentBlock)
    (hReorg : Returns (detectReorg previous) reorgTrace reorgDetected)
    (hSearch : Returns (findStartBlock descriptor.registry.deploymentBlock head.number
      (saturatingSub head.timestamp descriptor.registry.maxTtlSeconds.toUInt64)) searchTrace startBlock) :
    ScanPrelude self descriptor previous constants head startBlock reorgDetected
      (first ++ (second ++ (headTrace ++ (reorgTrace ++ searchTrace)))) := by
  rw [returns_attempt, RegistryProvider.runs_chainId] at hChain
  rw [returns_attempt, RegistryProvider.runs_registryConstants] at hConstants
  refine ⟨validate_eq_ok.mp hValid, hConforms, UInt64.not_lt.mp hDeployed, headTrace, reorgTrace,
    searchTrace, ?_, hHead, hReorg, hSearch⟩
  rw [hChain, hConstants, not_not.mp hActual]
  rfl

theorem returns_scan {trace : List (Event RegistryProvider)} {report : ScanReport}
    (h : Returns (self.scan keccak256 descriptor localNodeId previous) trace report) :
    ∃ constants before logsTrace scanned, trace = before ++ logsTrace ∧
      ScanPrelude self descriptor previous constants report.head report.startBlock report.reorgDetected before ∧
      Returns (self.scanLogs keccak256 descriptor localNodeId constants report.startBlock report.head)
        logsTrace scanned ∧
      report = ⟨report.startBlock, report.head, ⟨report.head.number, report.head.hash⟩,
        report.reorgDetected, scanned.logsProcessed, scanned.recordsRejected, scanned.chunkReductions,
        scanned.candidates⟩ := by
  rw [RegistryScanner.scan] at h
  split at h
  · exact absurd h returns_throw
  rename_i hValid
  obtain ⟨first, actual, rest, rfl, hChain, h⟩ := returns_bind.mp h
  split at h
  · exact absurd h returns_throw
  rename_i hActual
  obtain ⟨second, constants, rest, rfl, hConstants, h⟩ := returns_bind.mp h
  split at h
  · exact absurd h returns_throw
  rename_i hConforms
  obtain ⟨headTrace, head, rest, rfl, hHead, h⟩ := returns_bind.mp h
  split at h
  · exact absurd h returns_throw
  rename_i hDeployed
  obtain ⟨reorgTrace, reorgDetected, rest, rfl, hReorg, h⟩ := returns_bind.mp h
  obtain ⟨searchTrace, startBlock, rest, rfl, hSearch, h⟩ := returns_bind.mp h
  obtain ⟨logsTrace, scanned, rest, rfl, hLogs, h⟩ := returns_bind.mp h
  obtain ⟨rfl, rfl⟩ := returns_pure.mp h
  exact ⟨constants, _, logsTrace, scanned, by simp only [List.append_assoc, List.append_nil],
    scanPrelude_of_runs hValid hActual hChain hConstants hConforms hHead hDeployed hReorg hSearch, hLogs, rfl⟩

/-- A scan asks for logs only after its prelude, whether or not it then comes to an end. -/
theorem invokes_scan {history : List (Event RegistryProvider)} {address : Address} {ns : Namespace}
    {fromBlock toBlock : UInt64} (h : Invokes (self.scan keccak256 descriptor localNodeId previous) history
      (.announcements address ns fromBlock toBlock)) :
    ∃ constants head startBlock reorgDetected before after, history = before ++ after ∧
      ScanPrelude self descriptor previous constants head startBlock reorgDetected before ∧
      Invokes (self.scanLogs keccak256 descriptor localNodeId constants startBlock head) after
        (.announcements address ns fromBlock toBlock) := by
  rw [RegistryScanner.scan] at h
  split at h
  · exact absurd h invokes_throw
  rename_i hValid
  obtain h | ⟨first, actual, rest, rfl, hChain, h⟩ := invokes_bind.mp h
  · rw [invokes_attempt, RegistryProvider.reaches_chainId] at h
    cases h.2
  split at h
  · exact absurd h invokes_throw
  rename_i hActual
  obtain h | ⟨second, constants, rest, rfl, hConstants, h⟩ := invokes_bind.mp h
  · rw [invokes_attempt, RegistryProvider.reaches_registryConstants] at h
    cases h.2
  split at h
  · exact absurd h invokes_throw
  rename_i hConforms
  obtain h | ⟨headTrace, head, rest, rfl, hHead, h⟩ := invokes_bind.mp h
  · obtain ⟨reference, hTarget⟩ := invokes_confirmedHead h
    cases hTarget
  split at h
  · exact absurd h invokes_throw
  rename_i hDeployed
  obtain h | ⟨reorgTrace, reorgDetected, rest, rfl, hReorg, h⟩ := invokes_bind.mp h
  · obtain ⟨reference, hTarget⟩ := invokes_detectReorg h
    cases hTarget
  obtain h | ⟨searchTrace, startBlock, rest, rfl, hSearch, h⟩ := invokes_bind.mp h
  · obtain ⟨reference, hTarget⟩ := invokes_findStartBlock h
    cases hTarget
  obtain h | ⟨_, _, _, -, -, h⟩ := invokes_bind.mp h
  · exact ⟨constants, head, startBlock, reorgDetected, _, rest, by simp only [List.append_assoc],
      scanPrelude_of_runs hValid hActual hChain hConstants hConforms hHead hDeployed hReorg hSearch, h⟩
  · exact absurd h invokes_pure

end Scan

end Resurrect.Ethereum
