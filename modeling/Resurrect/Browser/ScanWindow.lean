import Resurrect.Browser.Scanner
import Resurrect.Foundation.Bisection
import Mathlib.Order.Interval.Finset.Nat

/-! # The scan window of the browser client

Two ways to the first block: a bisection of the timestamps up to the confirmed head,
or a fixed number of blocks back from it, with the latest block as the clock. The
second is as good as the first where no more blocks than that fit into the longest
lifetime before the latest block.
-/

namespace Resurrect.Browser

open Hex Interaction Bisection

/-- Block timestamps up to a latest block. -/
structure Chain where
  timestamp : Nat → Core.U256
  latest : Nat

namespace Chain

variable (chain : Chain)

def Nondecreasing : Prop :=
  ∀ a b, a ≤ b → b ≤ chain.latest → (chain.timestamp a).val ≤ (chain.timestamp b).val

/-- Consecutive blocks are at least that many seconds apart. -/
def Spaced (seconds : Nat) : Prop :=
  ∀ n < chain.latest, (chain.timestamp n).val + seconds ≤ (chain.timestamp (n + 1)).val

/-- The blocks whose timestamps lie in the longest lifetime up to the latest one. -/
def recentBlocks : Finset Nat :=
  (Finset.range (chain.latest + 1)).filter fun n =>
    (chain.timestamp chain.latest).val < (chain.timestamp n).val + maxTtlSeconds ∧
      (chain.timestamp n).val ≤ (chain.timestamp chain.latest).val

/-- Without a lookback nothing is asked of the chain. -/
def Sufficient : Option Int → Prop
  | none => True
  | some maxBlockLookback => (chain.recentBlocks.card : Int) ≤ maxBlockLookback

/-- No event emitted in a block of the range and live at the clock lies before `start`. -/
def Covers (deployment head clock start : Nat) : Prop :=
  ∀ block ns recordType ttl peerRecord event, deployment ≤ block → block ≤ head →
    Ethereum.ResurrectBeaconV1.announce (chain.timestamp block) ns recordType ttl peerRecord = .ok event →
    clock < event.validUntil.toNat → start ≤ block

end Chain

/-- Every header in the answers is the chain's, the latest one or the one asked for by number. -/
def HonestBlocks (chain : Chain) (trace : List (Event RegistryProvider)) : Prop :=
  ∀ tag value block, (⟨.ethGetBlockByNumber tag, .ok value⟩ : Event RegistryProvider) ∈ trace →
    asBlock tag value = .ok block →
    bigInt block.timestamp = (chain.timestamp (bigInt block.number)).val ∧
      (tag = "latest" → bigInt block.number = chain.latest) ∧ ∀ number, tag = quantity number → bigInt block.number = number

theorem HonestBlocks.mono {chain : Chain} {trace part : List (Event RegistryProvider)} (h : HonestBlocks chain trace)
    (hPart : part ⊆ trace) : HonestBlocks chain part :=
  fun tag value block hMem => h tag value block (hPart hMem)

section Window

variable {chain : Chain} {trace : List (Event RegistryProvider)}

theorem latest_of_getBlock {block : RpcBlock} (h : Returns (getBlock "latest") trace block)
    (hBlocks : HonestBlocks chain trace) :
    bigInt block.number = chain.latest ∧ bigInt block.timestamp = (chain.timestamp chain.latest).val := by
  obtain ⟨value, rfl, hBlock⟩ := returns_getBlock.mp h
  obtain ⟨hTimestamp, hLatest, -⟩ := hBlocks "latest" value block (List.mem_singleton.mpr rfl) hBlock
  rw [hLatest rfl] at hTimestamp
  exact ⟨hLatest rfl, hTimestamp⟩

theorem timestamp_of_getBlock {number : Nat} {block : RpcBlock} (h : Returns (getBlock (quantity number)) trace block)
    (hBlocks : HonestBlocks chain trace) : bigInt block.timestamp = (chain.timestamp number).val := by
  obtain ⟨value, rfl, hBlock⟩ := returns_getBlock.mp h
  obtain ⟨hTimestamp, -, hNumber⟩ := hBlocks _ value block (List.mem_singleton.mpr rfl) hBlock
  rwa [hNumber number rfl] at hTimestamp

theorem timestamp_of_confirmedBlock {headNumber : Nat} {latest head : RpcBlock}
    (h : Returns (confirmedBlock headNumber latest) trace head) (hBlocks : HonestBlocks chain trace)
    (hLatest : bigInt latest.timestamp = (chain.timestamp (bigInt latest.number)).val) :
    bigInt head.timestamp = (chain.timestamp headNumber).val := by
  rw [confirmedBlock] at h
  split at h
  · exact timestamp_of_getBlock h hBlocks
  · rename_i hNumber
    obtain ⟨-, rfl⟩ := returns_pure.mp h
    rw [hLatest, not_not.mp hNumber]

theorem findStartBlock_isLeast {cutoff first last low high start : Nat}
    (h : Returns (findStartBlock cutoff low high) trace start) (hBlocks : HonestBlocks chain trace)
    (hUp : UpwardClosed (fun n => cutoff ≤ (chain.timestamp n).val) first last)
    (hBrackets : Brackets (fun n => cutoff ≤ (chain.timestamp n).val) first last low high) :
    IsLeast {n | first ≤ n ∧ n ≤ last ∧ cutoff ≤ (chain.timestamp n).val} start := by
  fun_induction findStartBlock cutoff low high generalizing trace
  case case1 low high hLt middle ihHigh ihLow =>
    have hLow : low ≤ middle := Nat.le_add_right _ _
    have hMiddle : middle < high := by omega
    obtain ⟨probe, block, rest, rfl, hProbe, hRest⟩ := returns_bind.mp h
    rw [timestamp_of_getBlock hProbe (hBlocks.mono (List.subset_append_left _ _))] at hRest
    have hRestBlocks : HonestBlocks chain rest := hBlocks.mono (List.subset_append_right _ _)
    split at hRest
    · rename_i hOld
      exact ihHigh hRest hRestBlocks (hBrackets.raise hUp hLow hMiddle (not_le.mpr hOld))
    · rename_i hRecent
      exact ihLow hRest hRestBlocks (hBrackets.lower hUp hLow hMiddle (not_lt.mp hRecent))
  case case2 low high hLt =>
    obtain ⟨-, rfl⟩ := returns_pure.mp h
    exact hBrackets.isLeast (not_lt.mp hLt)

/-- Where the expiry is later than the clock, the block is not older than the longest lifetime. -/
theorem lt_add_of_live {block clock : Nat} {ns : Core.Namespace} {recordType ttl : UInt32} {peerRecord : Bytes}
    {event : Ethereum.ResurrectBeaconV1.PeerAnnounced}
    (hEvent : Ethereum.ResurrectBeaconV1.announce (chain.timestamp block) ns recordType ttl peerRecord = .ok event)
    (hLive : clock < event.validUntil.toNat) : clock < (chain.timestamp block).val + maxTtlSeconds := by
  obtain ⟨hEmits, -⟩ := Ethereum.ResurrectBeaconV1.announce_eq_ok.mp hEvent
  have hUntil := hEmits.validUntil_eq
  have hTtl : ttl.toNat ≤ maxTtlSeconds := hEmits.ttl_le
  have hWrapped : (UInt64.ofNat (chain.timestamp block).val).toNat ≤ (chain.timestamp block).val := Nat.mod_le _ _
  omega

theorem oldestLive_le {clock timestamp : Nat} (h : clock < timestamp + maxTtlSeconds) :
    oldestLive clock maxTtlSeconds ≤ timestamp := by
  rw [oldestLive]
  split <;> omega

theorem covers_findStartBlock (hMono : chain.Nondecreasing) {deployment head start : Nat}
    (h : Returns (findStartBlock (oldestLive (chain.timestamp head).val maxTtlSeconds) deployment head) trace start)
    (hBlocks : HonestBlocks chain trace) (hDeployed : deployment ≤ head) (hHead : head ≤ chain.latest) :
    chain.Covers deployment head (chain.timestamp head).val start := by
  have hUp : UpwardClosed (fun n => oldestLive (chain.timestamp head).val maxTtlSeconds ≤ (chain.timestamp n).val)
      deployment head := fun a b _ hab hb hReached => hReached.trans (hMono a b hab (hb.trans hHead))
  have hLast : oldestLive (chain.timestamp head).val maxTtlSeconds ≤ (chain.timestamp head).val :=
    oldestLive_le (Nat.lt_add_of_pos_right (by decide))
  obtain ⟨-, hLower⟩ := findStartBlock_isLeast h hBlocks hUp (Brackets.start hDeployed hLast)
  intro block ns recordType ttl peerRecord event hFirst hBlock hEvent hLive
  exact hLower ⟨hFirst, hBlock, oldestLive_le (lt_add_of_live hEvent hLive)⟩

theorem mem_recentBlocks {n : Nat} : n ∈ chain.recentBlocks ↔ n ≤ chain.latest ∧
    (chain.timestamp chain.latest).val < (chain.timestamp n).val + maxTtlSeconds ∧
      (chain.timestamp n).val ≤ (chain.timestamp chain.latest).val := by
  rw [Chain.recentBlocks, Finset.mem_filter, Finset.mem_range, Nat.lt_succ_iff]

/-- From a recent block on all blocks are recent, so it is no further back than their number. -/
theorem latest_lt_add_card (hMono : chain.Nondecreasing) {block : Nat} (hBlock : block ≤ chain.latest)
    (hLive : (chain.timestamp chain.latest).val < (chain.timestamp block).val + maxTtlSeconds) :
    chain.latest < block + chain.recentBlocks.card := by
  have hSub : Finset.Icc block chain.latest ⊆ chain.recentBlocks := by
    intro n hn
    obtain ⟨hFirst, hLast⟩ := Finset.mem_Icc.mp hn
    have hOlder := hMono block n hFirst hLast
    exact mem_recentBlocks.mpr ⟨hLast, by omega, hMono n chain.latest hLast (le_refl _)⟩
  have hCard := Finset.card_le_card hSub
  rw [Nat.card_Icc] at hCard
  omega

theorem covers_lookbackStart (hMono : chain.Nondecreasing) {deployment head lookback : Nat} (hHead : head ≤ chain.latest)
    (hEnough : chain.recentBlocks.card ≤ lookback) :
    chain.Covers deployment head (chain.timestamp chain.latest).val (lookbackStart deployment head lookback) := by
  intro block ns recordType ttl peerRecord event hFirst hBlock hEvent hLive
  have hNear := latest_lt_add_card hMono (hBlock.trans hHead) (lt_add_of_live hEvent hLive)
  rw [lookbackStart]
  apply max_le hFirst
  split <;> omega

theorem covers_scanWindow (hMono : chain.Nondecreasing) {descriptor : NetworkDescriptor} {options : ScanOptions}
    {window : ScanWindow} (h : Returns (scanWindow descriptor options) trace window) (hBlocks : HonestBlocks chain trace)
    (hTtl : descriptor.registry.maxTtlSeconds = maxTtlSeconds) (hEnough : chain.Sufficient options.maxBlockLookback) :
    chain.Covers descriptor.registry.deploymentBlock window.headNumber window.headTimestamp window.startBlock := by
  rw [scanWindow] at h
  obtain ⟨first, latest, rest, rfl, hLatest, hRest⟩ := returns_bind.mp h
  have hRestBlocks : HonestBlocks chain rest := hBlocks.mono (List.subset_append_right _ _)
  obtain ⟨hNumber, hTimestamp⟩ := latest_of_getBlock hLatest (hBlocks.mono (List.subset_append_left _ _))
  have hHead : confirmedNumber options latest ≤ chain.latest := by
    simp only [confirmedNumber, hNumber]
    split <;> omega
  dsimp only at hRest
  split at hRest
  · exact absurd hRest returns_throw
  rename_i hDeployed
  split at hRest
  · obtain ⟨headTrace, head, rest, rfl, hConfirmed, hRest⟩ := returns_bind.mp hRest
    obtain ⟨searchTrace, startBlock, rest, rfl, hSearch, hRest⟩ := returns_bind.mp hRest
    obtain ⟨rfl, rfl⟩ := returns_pure.mp hRest
    have hClock := timestamp_of_confirmedBlock hConfirmed (hRestBlocks.mono (List.subset_append_left _ _))
      (by rw [hTimestamp, hNumber])
    rw [hClock, hTtl] at hSearch
    rw [ScanWindow.headTimestamp, hClock]
    exact covers_findStartBlock hMono hSearch (hRestBlocks.mono (by simp)) (not_lt.mp hDeployed) hHead
  · rename_i maxBlockLookback hLookback
    obtain ⟨-, rfl⟩ := returns_pure.mp hRest
    rw [hLookback] at hEnough
    have hCard : chain.recentBlocks.card ≤ maxBlockLookback.toNat := Int.ofNat_le.mp (hEnough.trans (Int.self_le_toNat _))
    rw [ScanWindow.headTimestamp, hTimestamp]
    exact covers_lookbackStart hMono hHead hCard

end Window

section Spaced

variable {chain : Chain} {seconds : Nat}

theorem Chain.Spaced.add_le (h : chain.Spaced seconds) {n k : Nat} (hLast : n + k ≤ chain.latest) :
    (chain.timestamp n).val + seconds * k ≤ (chain.timestamp (n + k)).val := by
  induction k with
  | zero => exact le_refl _
  | succ k ih =>
    have hBefore := ih (by omega)
    have hStep := h (n + k) (by omega)
    calc (chain.timestamp n).val + seconds * (k + 1) = (chain.timestamp n).val + seconds * k + seconds := by
          rw [Nat.mul_succ, Nat.add_assoc]
      _ ≤ (chain.timestamp (n + k)).val + seconds := Nat.add_le_add_right hBefore seconds
      _ ≤ (chain.timestamp (n + (k + 1))).val := hStep

/-- At twelve seconds a block, ninety days are fewer blocks than the mainnet lookback. -/
theorem Chain.Spaced.sufficient (h : chain.Spaced 12) : chain.Sufficient (some ethereumMainnetMaxBlocksPerTtl) := by
  have hSub : chain.recentBlocks ⊆ Finset.Ioc (chain.latest - 648000) chain.latest ∪ {0} := by
    intro n hn
    obtain ⟨hLast, hLive, -⟩ := mem_recentBlocks.mp hn
    have hSum : n + (chain.latest - n) = chain.latest := Nat.add_sub_cancel' hLast
    have hApart := h.add_le hSum.le
    rw [hSum] at hApart
    have hTtl : maxTtlSeconds = 12 * 648000 := rfl
    rw [Finset.mem_union, Finset.mem_Ioc, Finset.mem_singleton]
    omega
  have hCard := (Finset.card_le_card hSub).trans (Finset.card_union_le _ _)
  rw [Nat.card_Ioc, Finset.card_singleton] at hCard
  have hLookback : ethereumMainnetMaxBlocksPerTtl = 650000 := rfl
  change (chain.recentBlocks.card : Int) ≤ ethereumMainnetMaxBlocksPerTtl
  omega

end Spaced

section Queries

variable {keccak256 : Bytes → Core.B256}
  {decodeBrowserPeerRecord : String → Nat → Nat → Nat → RecordOptions → Except String BrowserPeerCandidate}
  {descriptor : NetworkDescriptor} {options : ScanOptions}

theorem invokes_scanChunks {history : List (Event RegistryProvider)} {headNumber «from» chunk chunkReductions : Nat}
    {head : RpcBlock} {progress : LogProgress} {address fromBlock toBlock : String} {topics : List String}
    (h : Invokes (scanChunks keccak256 decodeBrowserPeerRecord descriptor options headNumber head «from» chunk
      chunkReductions progress) history (.ethGetLogs address topics fromBlock toBlock)) :
    ∃ first last, fromBlock = quantity first ∧ toBlock = quantity last ∧ «from» ≤ first ∧ first ≤ last ∧
      last ≤ headNumber := by
  fun_induction scanChunks keccak256 decodeBrowserPeerRecord descriptor options headNumber head «from» chunk
    chunkReductions progress generalizing history
  case case1 «from» chunk chunkReductions progress maxLogs minimumChunk hRange last ihNext ihReduced =>
    obtain h | ⟨_, answer, _, -, -, h⟩ := invokes_bind.mp h
    · obtain ⟨-, hTarget⟩ := Prog.reaches_ask.mp (invokes_lift.mp h)
      simp only [RpcRequest.ethGetLogs.injEq] at hTarget
      obtain ⟨-, -, hFrom, hTo⟩ := hTarget
      exact ⟨«from», last, hFrom, hTo, le_refl _, le_chunkEnd chunk hRange.1, chunkEnd_le _ _ _⟩
    · split at h
      · split at h
        · exact absurd h invokes_pure
        · rename_i hEnd
          obtain ⟨first, final, hFrom, hTo, hLe, hRest⟩ := ihNext _ h
          have hLast : «from» ≤ last := le_chunkEnd chunk hRange.1
          exact ⟨first, final, hFrom, hTo, by omega, hRest⟩
      · split at h
        · rename_i hChunk
          exact ihReduced _ hChunk h
        · exact absurd h invokes_throw
  case case2 => exact absurd h invokes_pure

end Queries

/-- No live announcement is outside the window of a scan: of one that returns a report, and of every log query made
before it ends or fails. The mainnet lookback is enough for any chain of blocks twelve seconds apart. -/
theorem live_announcements_in_browser_window (keccak256 : Bytes → Core.B256)
    (decodeBrowserPeerRecord : String → Nat → Nat → Nat → RecordOptions → Except String BrowserPeerCandidate)
    (localeCompare : String → String → Int) (descriptor : NetworkDescriptor) (options : ScanOptions) (chain : Chain)
    (hMono : chain.Nondecreasing) :
    (∀ trace report,
      Returns (scanRegistry keccak256 decodeBrowserPeerRecord localeCompare descriptor options) trace report →
      HonestBlocks chain trace → chain.Sufficient options.maxBlockLookback →
      chain.Covers descriptor.registry.deploymentBlock report.headBlock report.headTimestamp report.startBlock) ∧
    (∀ history address topics fromBlock toBlock,
      Invokes (scanRegistry keccak256 decodeBrowserPeerRecord localeCompare descriptor options) history
        (.ethGetLogs address topics fromBlock toBlock) →
      HonestBlocks chain history → chain.Sufficient options.maxBlockLookback →
      ∃ before windowTrace after window first last, history = before ++ (windowTrace ++ after) ∧
        Returns (scanWindow descriptor options) windowTrace window ∧
        fromBlock = quantity first ∧ toBlock = quantity last ∧
        window.startBlock ≤ first ∧ first ≤ last ∧ last ≤ window.headNumber ∧
        chain.Covers descriptor.registry.deploymentBlock window.headNumber window.headTimestamp window.startBlock) ∧
    (chain.Spaced 12 → chain.Sufficient (some ethereumMainnetMaxBlocksPerTtl)) := by
  refine ⟨fun trace report hRun hBlocks hEnough => ?_, fun history address topics fromBlock toBlock hInvokes hBlocks
    hEnough => ?_, Chain.Spaced.sufficient⟩
  · obtain ⟨before, windowTrace, logsTrace, window, rfl, hTtl, hWindow, hStart, hHead, hClock⟩ :=
      returns_scanRegistry hRun
    have hWindowBlocks : HonestBlocks chain windowTrace := hBlocks.mono (by simp)
    rw [hStart, hHead, hClock]
    exact covers_scanWindow hMono hWindow hWindowBlocks hTtl hEnough
  · obtain ⟨before, windowTrace, after, window, rfl, hTtl, hWindow, hLogs⟩ := invokes_scanRegistry hInvokes
    have hWindowBlocks : HonestBlocks chain windowTrace := hBlocks.mono (by simp)
    obtain ⟨first, last, hFrom, hTo, hFirst, hLe, hLast⟩ := invokes_scanChunks hLogs
    exact ⟨before, windowTrace, after, window, first, last, rfl, hWindow, hFrom, hTo, hFirst, hLe, hLast,
      covers_scanWindow hMono hWindow hWindowBlocks hTtl hEnough⟩

/-- One block a day, of which ninety fit into the longest lifetime. -/
def dailyChain : Chain where
  timestamp block := ⟨block * 86400 % 2 ^ 256, Nat.mod_lt _ (by decide)⟩
  latest := 100

theorem nondecreasing_dailyChain : dailyChain.Nondecreasing := by
  intro a b hab hb
  have hLatest : b ≤ 100 := hb
  change a * 86400 % 2 ^ 256 ≤ b * 86400 % 2 ^ 256
  rw [Nat.mod_eq_of_lt (by omega), Nat.mod_eq_of_lt (by omega)]
  omega

def dailyDescriptor : NetworkDescriptor where
  resurrectVersion := 1
  registry := ⟨31337, "0x0101010101010101010101010101010101010101", 8, 7776000⟩
  «namespace» := "0x80b9e2baaf4a666ec32337c351ad59485b3a43eca09a5f372e2f84b981123c88"
  acceptedRecordTypes := [2]

/-- Two confirmations and a lookback of ninety blocks, the rest as it is by default. -/
def dailyOptions : ScanOptions := ⟨some 2, some 90, none, none, none, none, none, none⟩

/-- A scan that starts ninety blocks back from block 98 and asks for no block but the latest. -/
def dailyScan : List (Event RegistryProvider) :=
  [⟨.ethChainId, .ok (.string "0x7a69")⟩,
    ⟨.ethCall dailyDescriptor.registry.address versionSelector, .ok (.string "0x01")⟩,
    ⟨.ethCall dailyDescriptor.registry.address maxTtlSelector, .ok (.string "0x76a700")⟩,
    ⟨.ethCall dailyDescriptor.registry.address maxRecordBytesSelector, .ok (.string "0x1000")⟩,
    ⟨.ethGetBlockByNumber "latest", .ok (.object [("number", .string "0x64"), ("timestamp", .string "0x83d600"),
      ("hash", .string "0x0000000000000000000000000000000000000000000000000000000000000064")])⟩,
    ⟨.ethGetLogs dailyDescriptor.registry.address [peerAnnouncedTopic, dailyDescriptor.namespace] "0x9" "0x62",
      .ok (.array [])⟩]

theorem honestBlocks_dailyScan : HonestBlocks dailyChain dailyScan := by
  intro tag value block hMem hBlock
  simp only [dailyScan, List.mem_cons, List.not_mem_nil, or_false] at hMem
  obtain h | h | h | h | h | h := hMem
  · cases h
  · cases h
  · cases h
  · cases h
  · cases h
    cases hBlock
    refine ⟨by decide, fun _ => by decide, fun number hNumber => ?_⟩
    exact absurd (congrArg (fun text => text.toList.head?) hNumber) (by simp [quantity, hexText])
  · cases h

theorem live_announcements_in_browser_window_daily : dailyChain.Covers 8 98 8640000 9 := by
  refine (live_announcements_in_browser_window (fun _ => 0) (fun _ _ _ _ _ => .error "malformed record") (fun _ _ => 0)
    dailyDescriptor dailyOptions dailyChain nondecreasing_dailyChain).1 dailyScan ⟨9, 98, 8640000, 0, 0, 0, []⟩ ?_ ?_ ?_
  · exact Prog.runs_of_replay (by decide +kernel)
  · exact honestBlocks_dailyScan
  · change (dailyChain.recentBlocks.card : Int) ≤ 90
    decide

end Resurrect.Browser
