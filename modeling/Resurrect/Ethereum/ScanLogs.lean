import Resurrect.Ethereum.ScanWindow

/-! # Chunked scanning is plain scanning

The chunk loop with its halvings, its clamp at the head and its cap is a
refinement of one pass over the window: the logs it processes are the first ones
in chain order, each once, whatever the chunk sizes and the refusals.
-/

namespace Resurrect.Ethereum

open Resurrect.Core Interaction Word64

variable {chain : Chain} {keccak256 : Bytes → B256} {self : RegistryScanner}

def accepted (codecs : CodecRegistry) (policy : AnnouncementPolicy) (logs : List Announcement) :
    List PeerCandidate :=
  logs.filterMap fun log => (codecs.validateAnnouncement log policy).toOption

def rejections (codecs : CodecRegistry) (policy : AnnouncementPolicy) (logs : List Announcement) : Nat :=
  logs.countP fun log => (codecs.validateAnnouncement log policy).toOption.isNone

theorem mem_accepted {codecs : CodecRegistry} {policy : AnnouncementPolicy} {logs : List Announcement}
    {candidate : PeerCandidate} : candidate ∈ accepted codecs policy logs ↔
      ∃ log ∈ logs, codecs.validateAnnouncement log policy = .ok candidate := by
  rw [accepted, List.mem_filterMap]
  apply exists_congr
  intro log
  apply and_congr_right
  intro _
  cases codecs.validateAnnouncement log policy <;> simp [Except.toOption]

theorem foldl_processAnnouncement (policy : AnnouncementPolicy) (logs : List Announcement)
    (progress : LogProgress) :
    logs.foldl (self.processAnnouncement keccak256 policy) progress =
      ⟨progress.logsProcessed + logs.length, progress.recordsRejected + rejections self.codecs policy logs,
        progress.candidates.insertAll keccak256 (accepted self.codecs policy logs)⟩ := by
  induction logs generalizing progress with
  | nil => rfl
  | cons log rest ih =>
    rw [List.foldl_cons, ih, RegistryScanner.processAnnouncement]
    cases hLog : self.codecs.validateAnnouncement log policy with
    | ok candidate =>
      simp only [rejections, accepted, hLog, List.countP_cons, List.filterMap_cons, Except.toOption,
        List.length_cons, Option.isNone_some, Bool.false_eq_true, if_false]
      congr 1
      omega
    | error error =>
      simp only [rejections, accepted, hLog, List.countP_cons, List.filterMap_cons, Except.toOption,
        List.length_cons, Option.isNone_none, if_true]
      congr 1 <;> omega

/-- One pass over the logs, up to the cap. -/
def plainScan (self : RegistryScanner) (keccak256 : Bytes → B256) (policy : AnnouncementPolicy)
    (logs : List Announcement) (progress : LogProgress) : LogProgress :=
  (logs.take (self.config.maxLogsPerScan - progress.logsProcessed)).foldl
    (self.processAnnouncement keccak256 policy) progress

theorem plainScan_nil (policy : AnnouncementPolicy) (progress : LogProgress) :
    plainScan self keccak256 policy [] progress = progress := by
  rw [plainScan, List.take_nil, List.foldl_nil]

theorem plainScan_capped (policy : AnnouncementPolicy) (logs : List Announcement) {progress : LogProgress}
    (h : self.config.maxLogsPerScan ≤ progress.logsProcessed) :
    plainScan self keccak256 policy logs progress = progress := by
  rw [plainScan, Nat.sub_eq_zero_of_le h, List.take_zero, List.foldl_nil]

theorem plainScan_append (policy : AnnouncementPolicy) (first second : List Announcement)
    (progress : LogProgress) : plainScan self keccak256 policy (first ++ second) progress =
      plainScan self keccak256 policy second (plainScan self keccak256 policy first progress) := by
  have hProcessed : (plainScan self keccak256 policy first progress).logsProcessed =
      progress.logsProcessed + min (self.config.maxLogsPerScan - progress.logsProcessed) first.length := by
    rw [plainScan, foldl_processAnnouncement, List.length_take]
  have hLeft : self.config.maxLogsPerScan - (plainScan self keccak256 policy first progress).logsProcessed =
      self.config.maxLogsPerScan - progress.logsProcessed - first.length := by
    rw [hProcessed]
    omega
  rw [plainScan, List.take_append, List.foldl_append, ← hLeft]
  rfl

section Loop

variable {descriptor : NetworkDescriptor} {constants : RegistryConstants} {head : BlockInfo}

theorem scanLoop_eq_plainScan {minimumChunkSize fromBlock chunkSize : UInt64} {chunkReductions : ℕ}
    {progress : LogProgress} {trace : List (Event RegistryProvider)} {result : LogProgress × ℕ}
    (h : Returns (self.scanLoop keccak256 descriptor constants head minimumChunkSize fromBlock chunkSize
      chunkReductions progress) trace result) (hLogs : HonestLogs chain trace) :
    result.1 = plainScan self keccak256 (self.policy descriptor constants head)
      (chain.logsIn descriptor.registry.address descriptor.namespace fromBlock head.number) progress := by
  fun_induction RegistryScanner.scanLoop self keccak256 descriptor constants head minimumChunkSize
    fromBlock chunkSize chunkReductions progress generalizing trace
  case case1 fromBlock chunkSize chunkReductions progress hRange chunkLast ihNext ihReduced =>
    obtain ⟨query, answer, rest, rfl, hQuery, hRest⟩ := returns_bind.mp h
    rw [returns_lift, RegistryProvider.runs_announcements] at hQuery
    have hRestLogs : HonestLogs chain rest := hLogs.mono (List.subset_append_right _ _)
    split at hRest
    · rename_i announcements
      have hAnswer : announcements = chain.logsIn descriptor.registry.address descriptor.namespace
          fromBlock chunkLast := hLogs _ _ _ _ _ (by simp [hQuery])
      subst hAnswer
      split at hRest
      · rename_i hEnd
        obtain ⟨-, rfl⟩ := returns_pure.mp hRest
        rw [hEnd]
        rfl
      · rename_i hEnd
        rw [ihNext _ hEnd hRest hRestLogs]
        have hFrom : fromBlock ≤ chunkLast := UInt64.le_iff_toNat_le.mpr (fromBlock_le_chunkEnd _ hRange.1)
        have hTo : chunkLast < head.number := UInt64.lt_iff_toNat_lt.mpr (chunkEnd_lt hEnd)
        rw [chain.logsIn_append _ _ hFrom hTo, plainScan_append]
        rfl
    · split at hRest
      · rename_i hChunk
        exact ihReduced hChunk hRest hRestLogs
      · exact absurd hRest returns_throw
    · exact absurd hRest returns_throw
  case case2 fromBlock chunkSize chunkReductions progress hRange =>
    obtain ⟨-, rfl⟩ := returns_pure.mp h
    obtain hFrom | hCap := not_and_or.mp hRange
    · rw [chain.logsIn_eq_nil _ _ (UInt64.not_le.mp hFrom), plainScan_nil]
    · rw [plainScan_capped _ _ (not_lt.mp hCap)]

end Loop

/-- What one pass over the logs comes to: the capped number processed, the rejections among
them, and the store of the rest, inserted one by one. -/
structure PlainOutcome (keccak256 : Bytes → B256) (scanner : RegistryScanner) (descriptor : NetworkDescriptor)
    (localNodeId : Bytes) (constants : RegistryConstants) (head : BlockInfo) (logs : List Announcement)
    (outcome : LogScanOutcome) : Prop where
  logsProcessed : outcome.logsProcessed = min scanner.config.maxLogsPerScan logs.length
  recordsRejected : outcome.recordsRejected =
    rejections scanner.codecs (scanner.policy descriptor constants head) (logs.take outcome.logsProcessed)
  candidates : outcome.candidates = ((CandidateStore.new ⟨scanner.config.maxCandidates,
      RegistryScanner.samplingSeed keccak256 localNodeId head.hash descriptor.namespace.bytes⟩).insertAll keccak256
    (accepted scanner.codecs (scanner.policy descriptor constants head)
      (logs.take outcome.logsProcessed))).ranked keccak256

theorem scanLogs_plainOutcome {descriptor : NetworkDescriptor} {localNodeId : Bytes}
    {constants : RegistryConstants} {startBlock : UInt64} {head : BlockInfo}
    {trace : List (Event RegistryProvider)} {outcome : LogScanOutcome}
    (h : Returns (self.scanLogs keccak256 descriptor localNodeId constants startBlock head) trace outcome)
    (hLogs : HonestLogs chain trace) :
    PlainOutcome keccak256 self descriptor localNodeId constants head
      (chain.logsIn descriptor.registry.address descriptor.namespace startBlock head.number) outcome := by
  rw [RegistryScanner.scanLogs] at h
  obtain ⟨loopTrace, ⟨progress, chunkReductions⟩, rest, rfl, hLoop, hRest⟩ := returns_bind.mp h
  obtain ⟨-, rfl⟩ := returns_pure.mp hRest
  have hPlain := scanLoop_eq_plainScan hLoop (hLogs.mono (List.subset_append_left _ _))
  rw [plainScan, foldl_processAnnouncement, Nat.sub_zero, List.length_take] at hPlain
  obtain rfl : progress = _ := hPlain
  refine ⟨by simp, ?_, ?_⟩
  · simp [← List.take_eq_take_min]
  · simp [← List.take_eq_take_min]

/-- The settings that a plain scan depends on; chunk sizes are not among them. -/
structure SameCaps (scanner other : RegistryScanner) : Prop where
  codecs : other.codecs = scanner.codecs
  maxLogsPerScan : other.config.maxLogsPerScan = scanner.config.maxLogsPerScan
  maxCandidates : other.config.maxCandidates = scanner.config.maxCandidates
  maxEndpointsPerRecord : other.config.maxEndpointsPerRecord = scanner.config.maxEndpointsPerRecord
  dialContext : other.config.dialContext = scanner.config.dialContext

theorem SameCaps.policy_eq {scanner other : RegistryScanner} (h : SameCaps scanner other)
    (descriptor : NetworkDescriptor) (constants : RegistryConstants) (head : BlockInfo) :
    other.policy descriptor constants head = scanner.policy descriptor constants head := by
  rw [RegistryScanner.policy, RegistryScanner.policy, h.maxEndpointsPerRecord, h.dialContext]

theorem PlainOutcome.eq_of_sameCaps {scanner other : RegistryScanner} {descriptor : NetworkDescriptor}
    {localNodeId : Bytes} {constants : RegistryConstants} {head : BlockInfo} {logs : List Announcement}
    {outcome outcome' : LogScanOutcome}
    (h : PlainOutcome keccak256 scanner descriptor localNodeId constants head logs outcome)
    (h' : PlainOutcome keccak256 other descriptor localNodeId constants head logs outcome')
    (hCaps : SameCaps scanner other) :
    outcome' = { outcome with chunkReductions := outcome'.chunkReductions } := by
  have hProcessed : outcome'.logsProcessed = outcome.logsProcessed := by
    rw [h'.logsProcessed, h.logsProcessed, hCaps.maxLogsPerScan]
  have hRejected : outcome'.recordsRejected = outcome.recordsRejected := by
    rw [h'.recordsRejected, h.recordsRejected, hProcessed, hCaps.codecs, hCaps.policy_eq]
  have hCandidates : outcome'.candidates = outcome.candidates := by
    rw [h'.candidates, h.candidates, hProcessed, hCaps.codecs, hCaps.policy_eq, hCaps.maxCandidates]
  cases outcome
  cases outcome'
  cases hProcessed
  cases hRejected
  cases hCandidates
  rfl

/-- Chunked scanning equals plain scanning, for every pattern of refusals and every chunk size. -/
theorem scanLogs_eq_plain (keccak256 : Bytes → B256) (scanner : RegistryScanner)
    (descriptor : NetworkDescriptor) (localNodeId : Bytes) (constants : RegistryConstants)
    (startBlock : UInt64) (head : BlockInfo) (chain : Chain) {trace : List (Event RegistryProvider)}
    {outcome : LogScanOutcome}
    (hRun : Returns (scanner.scanLogs keccak256 descriptor localNodeId constants startBlock head) trace outcome)
    (hLogs : HonestLogs chain trace) :
    PlainOutcome keccak256 scanner descriptor localNodeId constants head
      (chain.logsIn descriptor.registry.address descriptor.namespace startBlock head.number) outcome ∧
    ∀ other, SameCaps scanner other → ∀ trace' outcome',
      Returns (other.scanLogs keccak256 descriptor localNodeId constants startBlock head) trace' outcome' →
      HonestLogs chain trace' →
      outcome' = { outcome with chunkReductions := outcome'.chunkReductions } := by
  have hPlain := scanLogs_plainOutcome hRun hLogs
  refine ⟨hPlain, fun other hCaps trace' outcome' hRun' hLogs' => ?_⟩
  exact hPlain.eq_of_sameCaps (scanLogs_plainOutcome hRun' hLogs') hCaps

/-- A codec whose records are two bytes, a peer and a sequence. -/
def twoByteCodec : PeerRecordCodec where
  recordType := recordTypeLibp2p
  decodeAndVerify
    | [peer, sequence], _ => .ok {
        recordType := recordTypeLibp2p
        peerId := [peer]
        sequence := sequence.toUInt64
        endpoints := [⟨"/ip4/8.8.8.8/tcp/4001"⟩]
        rawSignedRecord := [peer, sequence]
        expiresAt := 0
        source := .resurrectRegistry
        announcementBlock := none
        announcementLogIndex := none }
    | _, _ => .error .invalidSignature

def twoByteLog (block logIndex : UInt64) (raw : Bytes) : Announcement where
  «namespace» := developmentDescriptor.namespace
  recordType := recordTypeLibp2p
  validUntil := 100 * 86400 + 1
  peerRecord := raw
  blockNumber := block
  logIndex := logIndex
  blockHash := none

def busyLogs : List Announcement :=
  [twoByteLog 10 0 [1, 7], twoByteLog 11 0 [9, 9, 9], twoByteLog 12 0 [1, 8], twoByteLog 12 1 [2, 5]]

def busyChain : Chain where
  timestamp block := block * 86400
  logs _ _ := busyLogs
  ordered _ _ := by decide

def busyScanner : RegistryScanner where
  codecs := CodecRegistry.new.register twoByteCodec
  config := { developmentConfig with initialChunkSize := 4, minimumChunkSize := 1, maxLogsPerScan := 3 }

/-- A chunk of four blocks refused, then two of two blocks, the second cut short by the cap. -/
def busyRun : List (Event RegistryProvider) :=
  let query := ProviderQuery.announcements developmentDescriptor.registry.address developmentDescriptor.namespace
  [⟨query 10 13, .error (.rangeLimit "at most two blocks")⟩,
    ⟨query 10 11, .ok [twoByteLog 10 0 [1, 7], twoByteLog 11 0 [9, 9, 9]]⟩,
    ⟨query 12 13, .ok [twoByteLog 12 0 [1, 8], twoByteLog 12 1 [2, 5]]⟩]

/-- keccak256 on the sampling seed and on the one identity scored in the run. -/
def busyKeccak (input : Bytes) : B256 :=
  if input.length = 65 then
    0x2702812d4241dd123d192e2fa24ab8713ffb7ac20bc933398db88534f2ffbb8f
  else
    0x3bb45d1dbe68699f3b1867a3c606e29931376a1856c108ffb2813d88dabbb59c

def busyOutcome : LogScanOutcome where
  logsProcessed := 3
  recordsRejected := 1
  chunkReductions := 1
  candidates := [{
    recordType := recordTypeLibp2p
    peerId := [1]
    sequence := 8
    endpoints := [⟨"/ip4/8.8.8.8/tcp/4001"⟩]
    rawSignedRecord := [1, 8]
    expiresAt := 100 * 86400 + 1
    source := .resurrectRegistry
    announcementBlock := some 12
    announcementLogIndex := some 0 }]

theorem scanLogs_eq_plain_busy : PlainOutcome busyKeccak busyScanner developmentDescriptor [1]
    ⟨1, 7776000, 4096⟩ (dailyBlock 100) (busyChain.logsIn developmentDescriptor.registry.address
      developmentDescriptor.namespace 10 100) busyOutcome := by
  have hRun : Returns (busyScanner.scanLogs busyKeccak developmentDescriptor [1] ⟨1, 7776000, 4096⟩ 10
      (dailyBlock 100)) busyRun busyOutcome := Prog.runs_of_replay (by decide +kernel)
  have hLogs : HonestLogs busyChain busyRun := by
    intro address ns fromBlock toBlock logs hMem
    simp only [busyRun, List.mem_cons] at hMem
    obtain h | h | h | h := hMem
    all_goals cases h
    all_goals decide
  exact (scanLogs_eq_plain busyKeccak busyScanner developmentDescriptor [1] ⟨1, 7776000, 4096⟩ 10
    (dailyBlock 100) busyChain hRun hLogs).1

end Resurrect.Ethereum
