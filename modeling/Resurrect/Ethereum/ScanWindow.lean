import Resurrect.Ethereum.Scanner
import Resurrect.Foundation.Bisection

/-! # The scan window

The search for the first block is a bisection of the timestamps, so where they
do not decrease the window starts at the least block that can still hold a live
announcement, and no log query of any scan, finished or not, lies outside it.
-/

namespace Resurrect.Ethereum

open Resurrect.Core Interaction Word64 Bisection

variable {chain : Chain}

/-- The window of a scan: it starts at the least block not older than the longest lifetime,
and every event still live at the head was emitted in it. -/
structure WindowStart (chain : Chain) (deployment : UInt64) (head : BlockInfo) (start : UInt64) : Prop where
  least : IsLeast {block | deployment ≤ block ∧ block ≤ head.number ∧
    head.timestamp.toNat - ResurrectBeaconV1.maxTtl.toNat ≤ (chain.timestamp block).toNat} start
  covers : ∀ block ns recordType ttl peerRecord event, deployment ≤ block → block ≤ head.number →
    ResurrectBeaconV1.announce (chain.blockTimestamp block) ns recordType ttl peerRecord = .ok event →
    head.timestamp < event.validUntil → start ≤ block

def Recent (chain : Chain) (cutoff : ℕ) (block : ℕ) : Prop :=
  cutoff ≤ (chain.timestamp (UInt64.ofNat block)).toNat

theorem recent_toNat {cutoff : ℕ} {block : UInt64} :
    Recent chain cutoff block.toNat ↔ cutoff ≤ (chain.timestamp block).toNat := by
  rw [Recent, UInt64.ofNat_toNat]

theorem toNat_ofNat_of_le {n : ℕ} {last : UInt64} (h : n ≤ last.toNat) : (UInt64.ofNat n).toNat = n :=
  UInt64.toNat_ofNat_of_lt' (lt_of_le_of_lt h last.toNat_lt)

theorem recent_upwardClosed {first last : UInt64} (hMono : chain.Nondecreasing first last) (cutoff : ℕ) :
    UpwardClosed (Recent chain cutoff) first.toNat last.toNat := by
  intro a b hFirst hab hLast hReached
  have ha := toNat_ofNat_of_le (hab.trans hLast)
  have hb := toNat_ofNat_of_le hLast
  have hLe : chain.timestamp (UInt64.ofNat a) ≤ chain.timestamp (UInt64.ofNat b) := by
    apply hMono
    · rwa [UInt64.le_iff_toNat_le, ha]
    · rwa [UInt64.le_iff_toNat_le, ha, hb]
    · rwa [UInt64.le_iff_toNat_le, hb]
  exact le_trans hReached (UInt64.le_iff_toNat_le.mp hLe)

theorem searchLoop_isLeast {first last cutoff low high start : UInt64}
    {trace : List (Event RegistryProvider)} (h : Returns (searchLoop cutoff low high) trace start)
    (hBlocks : HonestBlocks chain trace)
    (hUp : UpwardClosed (Recent chain cutoff.toNat) first.toNat last.toNat)
    (hBrackets : Brackets (Recent chain cutoff.toNat) first.toNat last.toNat low.toNat high.toNat) :
    IsLeast {n | first.toNat ≤ n ∧ n ≤ last.toNat ∧ Recent chain cutoff.toNat n} start.toNat := by
  fun_induction searchLoop cutoff low high generalizing trace
  case case1 low high hLt middle ihHigh ihLow =>
    have hMiddle : middle.toNat < high.toNat := midpoint_lt hLt
    have hLow : low.toNat ≤ middle.toNat := by
      rw [toNat_midpoint hLt]
      exact Nat.le_add_right _ _
    obtain ⟨probe, block, rest, rfl, hProbe, hRest⟩ := returns_bind.mp h
    rw [returns_requiredBlock] at hProbe
    obtain ⟨hTimestamp, hNumber⟩ := hBlocks (.number middle) block (by simp [hProbe])
    rw [hNumber middle rfl] at hTimestamp
    have hBlocks' : HonestBlocks chain rest := hBlocks.mono (List.subset_append_right _ _)
    rw [hTimestamp] at hRest
    split at hRest
    · rename_i hOld
      apply ihHigh hRest hBlocks'
      rw [toNat_add_one_of_lt hMiddle]
      refine hBrackets.raise hUp hLow hMiddle (mt recent_toNat.mp (not_le.mpr ?_))
      exact UInt64.lt_iff_toNat_lt.mp hOld
    · rename_i hRecent
      refine ihLow hRest hBlocks' (hBrackets.lower hUp hLow hMiddle (recent_toNat.mpr ?_))
      exact UInt64.le_iff_toNat_le.mp (UInt64.not_lt.mp hRecent)
  case case2 low high hLt =>
    obtain ⟨-, rfl⟩ := returns_pure.mp h
    exact hBrackets.isLeast (UInt64.le_iff_toNat_le.mp (UInt64.not_lt.mp hLt))

theorem findStartBlock_isLeast {deployment head cutoff start : UInt64}
    {trace : List (Event RegistryProvider)} (h : Returns (findStartBlock deployment head cutoff) trace start)
    (hBlocks : HonestBlocks chain trace) (hMono : chain.Nondecreasing deployment head)
    (hDeployed : deployment ≤ head) (hHead : cutoff ≤ chain.timestamp head) :
    IsLeast {block | deployment ≤ block ∧ block ≤ head ∧ cutoff ≤ chain.timestamp block} start := by
  have hLe : deployment.toNat ≤ head.toNat := UInt64.le_iff_toNat_le.mp hDeployed
  have hRecent : Recent chain cutoff.toNat head.toNat := recent_toNat.mpr (UInt64.le_iff_toNat_le.mp hHead)
  have hNat : IsLeast {n | deployment.toNat ≤ n ∧ n ≤ head.toNat ∧ Recent chain cutoff.toNat n} start.toNat := by
    have hStart := Brackets.start hLe hRecent
    rw [findStartBlock] at h
    split at h
    · rename_i hNot
      obtain ⟨-, rfl⟩ := returns_pure.mp h
      rw [UInt64.le_iff_toNat_le] at hNot
      rw [toNat_min, min_eq_left hLe]
      exact hStart.isLeast hNot
    · exact searchLoop_isLeast h hBlocks (recent_upwardClosed hMono _) hStart
  obtain ⟨⟨hFirst, hLast, hReached⟩, hLower⟩ := hNat
  refine ⟨⟨UInt64.le_iff_toNat_le.mpr hFirst, UInt64.le_iff_toNat_le.mpr hLast,
    UInt64.le_iff_toNat_le.mpr (recent_toNat.mp hReached)⟩, ?_⟩
  rintro block ⟨hFirst, hLast, hReached⟩
  rw [UInt64.le_iff_toNat_le] at hFirst hLast hReached ⊢
  exact hLower ⟨hFirst, hLast, recent_toNat.mpr hReached⟩

theorem cutoff_le_of_live {block head : UInt64} {ns : Namespace} {recordType ttl : UInt32}
    {peerRecord : Bytes} {event : ResurrectBeaconV1.PeerAnnounced}
    (hEvent : ResurrectBeaconV1.announce (chain.blockTimestamp block) ns recordType ttl peerRecord = .ok event)
    (hLive : head < event.validUntil) :
    head.toNat - ResurrectBeaconV1.maxTtl.toNat ≤ (chain.timestamp block).toNat := by
  obtain ⟨hEmits, -⟩ := ResurrectBeaconV1.announce_eq_ok.mp hEvent
  rw [Chain.ofNat_blockTimestamp] at hEmits
  have hTtl := hEmits.ttl_le
  have hUntil := hEmits.validUntil_eq
  rw [UInt64.lt_iff_toNat_lt] at hLive
  omega

section Prelude

variable {self : RegistryScanner} {descriptor : NetworkDescriptor} {previous : Option ScanCheckpoint}
  {constants : RegistryConstants} {head : BlockInfo} {startBlock : UInt64} {reorgDetected : Bool}
  {before : List (Event RegistryProvider)}

theorem ScanPrelude.toNat_maxTtl
    (h : ScanPrelude self descriptor previous constants head startBlock reorgDetected before) :
    descriptor.registry.maxTtlSeconds.toUInt64.toNat = ResurrectBeaconV1.maxTtl.toNat := by
  rw [h.valid.maxTtl]
  rfl

theorem ScanPrelude.head_timestamp
    (h : ScanPrelude self descriptor previous constants head startBlock reorgDetected before)
    (hBlocks : HonestBlocks chain before) : head.timestamp = chain.timestamp head.number := by
  obtain ⟨headTrace, reorgTrace, searchTrace, rfl, hHead, -, -⟩ := h.runs
  obtain ⟨reference, earlier, rfl⟩ := returns_confirmedHead hHead
  exact (hBlocks reference head (by simp)).1

theorem ScanPrelude.windowStart
    (h : ScanPrelude self descriptor previous constants head startBlock reorgDetected before)
    (hBlocks : HonestBlocks chain before)
    (hMono : chain.Nondecreasing descriptor.registry.deploymentBlock head.number) :
    WindowStart chain descriptor.registry.deploymentBlock head startBlock := by
  have hTimestamp := h.head_timestamp hBlocks
  have hTtl := h.toNat_maxTtl
  obtain ⟨headTrace, reorgTrace, searchTrace, rfl, -, -, hSearch⟩ := h.runs
  have hSearchBlocks : HonestBlocks chain searchTrace := hBlocks.mono fun event hMem => by simp [hMem]
  have hCutoff : ∀ block, saturatingSub head.timestamp descriptor.registry.maxTtlSeconds.toUInt64 ≤ block ↔
      head.timestamp.toNat - ResurrectBeaconV1.maxTtl.toNat ≤ block.toNat := by
    intro block
    rw [UInt64.le_iff_toNat_le, toNat_saturatingSub, hTtl]
  have hLeast := findStartBlock_isLeast hSearch hSearchBlocks hMono h.deployed (by
    rw [hCutoff, hTimestamp]
    exact Nat.sub_le _ _)
  simp only [hCutoff] at hLeast
  refine ⟨hLeast, fun block ns recordType ttl peerRecord event hFirst hLast hEvent hLive => ?_⟩
  exact hLeast.2 ⟨hFirst, hLast, cutoff_le_of_live hEvent hLive⟩

end Prelude

section Scan

variable {keccak256 : Bytes → B256} {self : RegistryScanner} {descriptor : NetworkDescriptor}
  {constants : RegistryConstants} {head : BlockInfo} {history : List (Event RegistryProvider)}
  {address : Address} {ns : Namespace} {queried toBlock : UInt64}

theorem invokes_scanLoop {minimumChunkSize fromBlock chunkSize : UInt64} {chunkReductions : ℕ}
    {progress : LogProgress} (h : Invokes (self.scanLoop keccak256 descriptor constants head minimumChunkSize
      fromBlock chunkSize chunkReductions progress) history (.announcements address ns queried toBlock)) :
    fromBlock ≤ queried ∧ queried ≤ toBlock ∧ toBlock ≤ head.number := by
  fun_induction RegistryScanner.scanLoop self keccak256 descriptor constants head minimumChunkSize
    fromBlock chunkSize chunkReductions progress generalizing history
  case case1 fromBlock chunkSize chunkReductions progress hRange chunkLast ihNext ihReduced =>
    obtain h | ⟨_, answer, _, -, -, h⟩ := invokes_bind.mp h
    · rw [invokes_lift, RegistryProvider.reaches_announcements] at h
      obtain ⟨-, hTarget⟩ := h
      simp only [ProviderQuery.announcements.injEq] at hTarget
      obtain ⟨-, -, hQueried, hTo⟩ := hTarget
      rw [hQueried, hTo]
      exact ⟨UInt64.le_refl _, UInt64.le_iff_toNat_le.mpr (fromBlock_le_chunkEnd _ hRange.1),
        UInt64.le_iff_toNat_le.mpr (chunkEnd_le _ _ _)⟩
    · split at h
      · split at h
        · exact absurd h invokes_pure
        · rename_i hEnd
          obtain ⟨hNext, hRest⟩ := ihNext _ hEnd h
          refine ⟨?_, hRest⟩
          have hFrom := fromBlock_le_chunkEnd chunkSize hRange.1
          rw [UInt64.le_iff_toNat_le, toNat_add_one_of_lt (chunkEnd_lt hEnd)] at hNext
          rw [UInt64.le_iff_toNat_le]
          omega
      · split at h
        · rename_i hChunk
          exact ihReduced hChunk h
        · exact absurd h invokes_throw
      · exact absurd h invokes_throw
  case case2 => exact absurd h invokes_pure

theorem invokes_scanLogs {localNodeId : Bytes} {startBlock : UInt64}
    (h : Invokes (self.scanLogs keccak256 descriptor localNodeId constants startBlock head) history
      (.announcements address ns queried toBlock)) :
    startBlock ≤ queried ∧ queried ≤ toBlock ∧ toBlock ≤ head.number := by
  rw [RegistryScanner.scanLogs] at h
  obtain h | ⟨_, outcome, _, -, -, h⟩ := invokes_bind.mp h
  · exact invokes_scanLoop h
  · exact absurd h invokes_pure

end Scan

section Completed

variable {keccak256 : Bytes → B256} {self : RegistryScanner} {descriptor : NetworkDescriptor}
  {localNodeId : Bytes} {previous : Option ScanCheckpoint}

theorem ScanPrelude.query_eq {constants : RegistryConstants} {head : BlockInfo} {startBlock : UInt64}
    {reorgDetected : Bool} {before : List (Event RegistryProvider)}
    (h : ScanPrelude self descriptor previous constants head startBlock reorgDetected before)
    {event : Event RegistryProvider} (hMem : event ∈ before) :
    event.query = .chainId ∨ (∃ address, event.query = .registryConstants address) ∨
      ∃ reference, event.query = .block reference := by
  obtain ⟨headTrace, reorgTrace, searchTrace, rfl, hHead, hReorg, hSearch⟩ := h.runs
  simp only [List.mem_cons, List.mem_append] at hMem
  obtain rfl | rfl | hMem | hMem | hMem := hMem
  · exact .inl rfl
  · exact .inr (.inl ⟨_, rfl⟩)
  · obtain ⟨earlier, hInvokes⟩ := hHead.invokes_of_mem hMem
    exact .inr (.inr (invokes_confirmedHead hInvokes))
  · obtain ⟨earlier, hInvokes⟩ := hReorg.invokes_of_mem hMem
    exact .inr (.inr (invokes_detectReorg hInvokes))
  · obtain ⟨earlier, hInvokes⟩ := hSearch.invokes_of_mem hMem
    exact .inr (.inr (invokes_findStartBlock hInvokes))

theorem logQuery_within_report {trace : List (Event RegistryProvider)} {report : ScanReport}
    (h : Returns (self.scan keccak256 descriptor localNodeId previous) trace report)
    {event : Event RegistryProvider} (hMem : event ∈ trace) {address : Address} {ns : Namespace}
    {fromBlock toBlock : UInt64} (hQuery : event.query = .announcements address ns fromBlock toBlock) :
    report.startBlock ≤ fromBlock ∧ fromBlock ≤ toBlock ∧ toBlock ≤ report.head.number := by
  obtain ⟨constants, before, logsTrace, scanned, rfl, hPrelude, hLogs, -⟩ := returns_scan h
  obtain hMem | hMem := List.mem_append.mp hMem
  · obtain hOther | ⟨_, hOther⟩ | ⟨_, hOther⟩ := hPrelude.query_eq hMem
    · cases hQuery.symm.trans hOther
    · cases hQuery.symm.trans hOther
    · cases hQuery.symm.trans hOther
  · obtain ⟨earlier, hInvokes⟩ := hLogs.invokes_of_mem hMem
    rw [hQuery] at hInvokes
    exact invokes_scanLogs hInvokes

end Completed

/-- No live announcement is outside the window of a scan, and nothing older is read: of a scan that
returns a report, and of every log query a scan makes before it ends or fails. -/
theorem live_announcements_in_window (keccak256 : Bytes → B256) (scanner : RegistryScanner)
    (descriptor : NetworkDescriptor) (localNodeId : Bytes) (previous : Option ScanCheckpoint) (chain : Chain) :
    (∀ trace report, Returns (scanner.scan keccak256 descriptor localNodeId previous) trace report →
      HonestBlocks chain trace →
      chain.Nondecreasing descriptor.registry.deploymentBlock report.head.number →
      WindowStart chain descriptor.registry.deploymentBlock report.head report.startBlock ∧
      ∀ event ∈ trace, ∀ address ns fromBlock toBlock,
        event.query = .announcements address ns fromBlock toBlock →
        report.startBlock ≤ fromBlock ∧ fromBlock ≤ toBlock ∧ toBlock ≤ report.head.number) ∧
    ∀ history address ns fromBlock toBlock,
      Invokes (scanner.scan keccak256 descriptor localNodeId previous) history
        (.announcements address ns fromBlock toBlock) →
      HonestBlocks chain history →
      ∃ head startBlock reference, (⟨.block reference, .ok (some head)⟩ : Event RegistryProvider) ∈ history ∧
        (chain.Nondecreasing descriptor.registry.deploymentBlock head.number →
          WindowStart chain descriptor.registry.deploymentBlock head startBlock ∧
          startBlock ≤ fromBlock ∧ fromBlock ≤ toBlock ∧ toBlock ≤ head.number) := by
  constructor
  · intro trace report hRun hBlocks hMono
    refine ⟨?_, fun event hMem address ns fromBlock toBlock hQuery => logQuery_within_report hRun hMem hQuery⟩
    obtain ⟨constants, before, logsTrace, scanned, rfl, hPrelude, -, -⟩ := returns_scan hRun
    exact hPrelude.windowStart (hBlocks.mono (List.subset_append_left _ _)) hMono
  · intro history address ns fromBlock toBlock hInvokes hBlocks
    obtain ⟨constants, head, startBlock, reorgDetected, before, after, rfl, hPrelude, hLogs⟩ :=
      invokes_scan hInvokes
    obtain ⟨headTrace, _, _, rfl, hHead, -, -⟩ := hPrelude.runs
    obtain ⟨reference, earlier, rfl⟩ := returns_confirmedHead hHead
    refine ⟨head, startBlock, reference, by simp, fun hMono => ⟨?_, invokes_scanLogs hLogs⟩⟩
    exact hPrelude.windowStart (hBlocks.mono (List.subset_append_left _ _)) hMono

def dailyChain : Chain where
  timestamp block := block * 86400
  logs _ _ := []
  ordered _ _ := .nil

def dailyBlock (number : UInt64) : BlockInfo := ⟨number, number * 86400, ⟨number.toNat, by
  exact number.toNat_lt.trans (by decide)⟩⟩

def developmentDescriptor : NetworkDescriptor where
  resurrectVersion := 1
  registry := ⟨31337, 0x0101010101010101010101010101010101010101, 8, 7776000⟩
  «namespace» := ⟨0x80b9e2baaf4a666ec32337c351ad59485b3a43eca09a5f372e2f84b981123c88⟩
  acceptedRecordTypes := [2]

def developmentConfig : ScannerConfig where
  initialChunkSize := 20000
  minimumChunkSize := 64
  maxLogsPerScan := 50000
  maxCandidates := 1024
  maxEndpointsPerRecord := 16
  fallbackConfirmations := 2
  useFinalityTags := false
  dialContext := .nativeServer

/-- The answers to a scan up to a head of a chain of one block a day, with the blocks its search reads. -/
def dailyAnswers (checkpoint : Option UInt64) (head first : UInt64) (searched : List UInt64)
    (logs : List Announcement) : List (Event RegistryProvider) :=
  [⟨.chainId, .ok 31337⟩,
    ⟨.registryConstants developmentDescriptor.registry.address, .ok ⟨1, 7776000, 4096⟩⟩,
    ⟨.block .latest, .ok (some (dailyBlock (head + 2)))⟩] ++
  (head :: checkpoint.toList ++ searched).map (fun number =>
    ⟨.block (.number number), .ok (some (dailyBlock number))⟩) ++
  [⟨.announcements developmentDescriptor.registry.address developmentDescriptor.namespace first head, .ok logs⟩]

section Daily

variable {checkpoint : Option UInt64} {head first : UInt64} {searched : List UInt64} {logs : List Announcement}
  {chain : Chain}

theorem honestBlocks_daily (hDaily : chain.timestamp = fun block => block * 86400) :
    HonestBlocks chain (dailyAnswers checkpoint head first searched logs) := by
  intro reference info hMem
  simp only [dailyAnswers, List.mem_append, List.mem_cons, List.mem_map, List.not_mem_nil, or_false] at hMem
  obtain ((h | h | h) | ⟨number, -, h⟩) | h := hMem
  · cases h
  · cases h
  · cases h
    exact ⟨by rw [hDaily]; rfl, by rintro _ ⟨⟩⟩
  · cases h
    exact ⟨by rw [hDaily]; rfl, by rintro _ ⟨⟩; rfl⟩
  · cases h

theorem honestLogs_daily (hLogs : logs = chain.logsIn developmentDescriptor.registry.address
    developmentDescriptor.namespace first head) :
    HonestLogs chain (dailyAnswers checkpoint head first searched logs) := by
  intro address ns fromBlock toBlock other hMem
  simp only [dailyAnswers, List.mem_append, List.mem_cons, List.mem_map, List.not_mem_nil, or_false] at hMem
  obtain ((h | h | h) | ⟨number, -, h⟩) | h := hMem
  · cases h
  · cases h
  · cases h
  · cases h
  · cases h
    exact hLogs

theorem nondecreasing_daily (hDaily : chain.timestamp = fun block => block * 86400) (first : UInt64) :
    chain.Nondecreasing first 100 := by
  intro a b ha hab hb
  have hHundred : (100 : UInt64).toNat = 100 := rfl
  have hDay : (86400 : UInt64).toNat = 86400 := rfl
  rw [hDaily, UInt64.le_iff_toNat_le, UInt64.toNat_mul, UInt64.toNat_mul, hDay]
  rw [UInt64.le_iff_toNat_le] at hab hb
  rw [Nat.mod_eq_of_lt (by omega), Nat.mod_eq_of_lt (by omega)]
  omega

end Daily

/-- A scan to block 100 that bisects the window down to block 10. -/
def dailyScan : List (Event RegistryProvider) := dailyAnswers none 100 10 [54, 31, 19, 13, 10, 9] []

def dailyReport : ScanReport :=
  ⟨10, dailyBlock 100, ⟨100, (dailyBlock 100).hash⟩, false, 0, 0, 0, []⟩

/-- keccak256 on the one input hashed in the run below, its sampling seed. -/
def dailyKeccak (_ : Bytes) : B256 :=
  0x2702812d4241dd123d192e2fa24ab8713ffb7ac20bc933398db88534f2ffbb8f

theorem live_announcements_in_window_daily :
    WindowStart dailyChain 8 (dailyBlock 100) 10 ∧
      ∀ event ∈ dailyScan, ∀ address ns fromBlock toBlock,
        event.query = .announcements address ns fromBlock toBlock →
        10 ≤ fromBlock ∧ fromBlock ≤ toBlock ∧ toBlock ≤ 100 := by
  refine (live_announcements_in_window dailyKeccak ⟨.new, developmentConfig⟩ developmentDescriptor [1] none
    dailyChain).1 dailyScan dailyReport ?_ ?_ ?_
  · exact Prog.runs_of_replay (by decide +kernel)
  · exact honestBlocks_daily rfl
  · exact nondecreasing_daily rfl 8

end Resurrect.Ethereum
