import Resurrect.Browser.CandidateSample
import Resurrect.Browser.ScanWindow
import Resurrect.Browser.SharedWorld
import Resurrect.Core.StoreSample

/-! # The two scanners agree

The node's scanner and the browser client's before one world, in lockstep: the same
head, the same bisection, the same chunks and halvings, the same logs counted and
rejected. Their stores are samples of offers that are views of the same verdicts, so
they hold the same records.
-/

namespace Resurrect.Browser

open Hex Interaction Word64 BoundedSample
open Resurrect.Core (Address B256 U256 Announcement PeerCandidate CandidateStore)
open Ethereum (BlockInfo RegistryScanner)

variable {world : World}

section Window

theorem toNat_lt_iff {a b : UInt64} : a.toNat < b.toNat ↔ a < b := UInt64.lt_iff_toNat_lt.symm

theorem quantity_ne_latest (n : Nat) : quantity n ≠ "latest" := by
  intro h
  have hFirst := congrArg (fun text => text.toList.head?) h
  simp [quantity, hexText] at hFirst

theorem yields_requiredBlock (name : String) (number : UInt64) :
    Yields world.registry (Ethereum.requiredBlock name (.number number)) (world.block number) :=
  (yields_attempt fun _ => rfl).bind (yields_pure _)

theorem yields_requiredBlock_latest (name : String) :
    Yields world.registry (Ethereum.requiredBlock name .latest) (world.block world.latest) :=
  (yields_attempt fun _ => rfl).bind (yields_pure _)

theorem yields_checked (world : World) {α : Type} {result : Except String α} {value : α} (h : result = .ok value) :
    Yields world.rpc (checked result) value := fun _ => by rw [h]; rfl

theorem yields_getBlock (number : UInt64) :
    Yields world.rpc (getBlock (quantity number.toNat)) (rpcBlock (world.block number)) := by
  refine (yields_attempt (a := blockJson (world.block number)) fun state => ?_).bind
    (yields_checked world (asBlock_blockJson _ _))
  change (Except.ok (blockJson (world.block (if quantity number.toNat = "latest" then _ else _))), state) = _
  rw [if_neg (quantity_ne_latest _), bigInt_quantity, UInt64.ofNat_toNat]

theorem yields_getBlock_latest : Yields world.rpc (getBlock "latest") (rpcBlock (world.block world.latest)) :=
  (yields_attempt (a := blockJson (world.block world.latest)) fun _ => rfl).bind
    (yields_checked world (asBlock_blockJson _ _))

theorem bigInt_timestamp (block : BlockInfo) : bigInt (rpcBlock block).timestamp = block.timestamp.toNat :=
  bigInt_quantity _

theorem bigInt_number (block : BlockInfo) : bigInt (rpcBlock block).number = block.number.toNat := bigInt_quantity _

/-- Both bisections probe the same blocks. -/
theorem yields_searchLoop (cutoff low high : UInt64) :
    ∃ start, Yields world.registry (Ethereum.searchLoop cutoff low high) start ∧
      Yields world.rpc (findStartBlock cutoff.toNat low.toNat high.toNat) start.toNat := by
  fun_induction Ethereum.searchLoop cutoff low high
  case case1 low high hLt middle ihHigh ihLow =>
    have hLtNat : low.toNat < high.toNat := UInt64.lt_iff_toNat_lt.mp hLt
    have hMiddle : middle.toNat = low.toNat + (high.toNat - low.toNat) / 2 := toNat_midpoint hLt
    rw [findStartBlock, dif_pos hLtNat, ← hMiddle]
    by_cases hOld : world.chain.timestamp middle < cutoff
    · obtain ⟨start, hRegistry, hRpc⟩ := ihHigh
      rw [toNat_add_one_of_lt (midpoint_lt hLt)] at hRpc
      refine ⟨start, (yields_requiredBlock _ middle).bind ?_, (yields_getBlock middle).bind ?_⟩
      · rwa [World.block, if_pos hOld]
      · rwa [bigInt_timestamp, World.block, if_pos (toNat_lt_iff.mpr hOld)]
    · obtain ⟨start, hRegistry, hRpc⟩ := ihLow
      refine ⟨start, (yields_requiredBlock _ middle).bind ?_, (yields_getBlock middle).bind ?_⟩
      · rwa [World.block, if_neg hOld]
      · rwa [bigInt_timestamp, World.block, if_neg (mt toNat_lt_iff.mp hOld)]
  case case2 low high hLt =>
    refine ⟨low, yields_pure low, ?_⟩
    rw [findStartBlock, dif_neg (mt toNat_lt_iff.mp hLt)]
    exact yields_pure _

theorem yields_findStartBlock (world : World) {deployment head : UInt64} (hDeployed : deployment ≤ head) (cutoff : UInt64) :
    ∃ start, Yields world.registry (Ethereum.findStartBlock deployment head cutoff) start ∧
      Yields world.rpc (findStartBlock cutoff.toNat deployment.toNat head.toNat) start.toNat := by
  rw [Ethereum.findStartBlock]
  split
  · rename_i hLe
    obtain rfl : deployment = head := UInt64.le_antisymm hDeployed hLe
    refine ⟨deployment, ?_, ?_⟩
    · have hMin : min deployment deployment = deployment := UInt64.toNat_inj.mp (by rw [toNat_min, min_self])
      rw [hMin]
      exact yields_pure _
    · rw [findStartBlock, dif_neg (lt_irrefl _)]
      exact yields_pure _
  · exact yields_searchLoop cutoff deployment head

end Window

/-- Both scanners are set alike: no finality tags and no lookback, and the node's settings given as options. -/
structure SameSettings (config : Ethereum.ScannerConfig) (options : ScanOptions) : Prop where
  useFinalityTags : config.useFinalityTags = false
  maxBlockLookback : options.maxBlockLookback = none
  confirmations : options.confirmations = some (config.fallbackConfirmations.toNat : Int)
  initialChunkSize : options.initialChunkSize = some (config.initialChunkSize.toNat : Int)
  minimumChunkSize : options.minimumChunkSize = some (config.minimumChunkSize.toNat : Int)
  maxLogs : options.maxLogs = some (config.maxLogsPerScan : Int)
  maxCandidates : options.maxCandidates = some (config.maxCandidates : Int)
  initialChunkSize_pos : 0 < config.initialChunkSize.toNat
  minimumChunkSize_pos : 0 < config.minimumChunkSize.toNat
  maxLogs_pos : 0 < config.maxLogsPerScan
  maxCandidates_pos : 0 < config.maxCandidates
  maxEndpoints : ∀ limit ∈ options.maxEndpointsPerRecord, 1 ≤ limit ∧ limit ≤ Numeral.maxSafeInteger

section Prelude

variable {self : RegistryScanner} {options : ScanOptions} {ours : NetworkDescriptor} {theirs : Core.NetworkDescriptor}

def World.head (world : World) (config : Ethereum.ScannerConfig) : BlockInfo :=
  world.block (saturatingSub world.latest config.fallbackConfirmations)

theorem yields_confirmedHead (h : SameSettings self.config options) :
    Yields world.registry self.confirmedHead (world.head self.config) := by
  rw [RegistryScanner.confirmedHead, h.useFinalityTags]
  exact (yields_requiredBlock_latest _).bind (yields_requiredBlock _ _)

theorem confirmedNumber_eq (h : SameSettings self.config options) :
    confirmedNumber options (rpcBlock (world.block world.latest)) = (world.head self.config).number.toNat := by
  have hNumber : bigInt (rpcBlock (world.block world.latest)).number = world.latest.toNat := bigInt_number _
  have hHead : (world.head self.config).number = saturatingSub world.latest self.config.fallbackConfirmations := rfl
  rw [confirmedNumber, h.confirmations, hNumber, hHead, toNat_saturatingSub]
  dsimp only [Option.getD_some, Int.toNat_natCast]
  split <;> omega

theorem yields_confirmedBlock (config : Ethereum.ScannerConfig) :
    Yields world.rpc (confirmedBlock (world.head config).number.toNat (rpcBlock (world.block world.latest)))
      (rpcBlock (world.head config)) := by
  rw [confirmedBlock]
  split
  · exact yields_getBlock _
  · rename_i hSame
    rw [bigInt_number, not_not, UInt64.toNat_inj] at hSame
    have hHead : world.head config = world.block world.latest := congrArg world.block hSame
    rw [hHead]
    exact yields_pure _

theorem oldestLive_eq (timestamp maxTtl : UInt64) :
    oldestLive timestamp.toNat maxTtl.toNat = (saturatingSub timestamp maxTtl).toNat := by
  rw [oldestLive, toNat_saturatingSub]
  split <;> omega

theorem fails_scanWindow (hSettings : SameSettings self.config options) (hSame : Same ours theirs)
    (hDeployed : (world.head self.config).number < theirs.registry.deploymentBlock) :
    Fails world.rpc (scanWindow ours options) := by
  rw [scanWindow]
  refine yields_getBlock_latest.bind_fails ?_
  dsimp only
  rw [confirmedNumber_eq hSettings, if_pos (by rwa [hSame.deploymentBlock, toNat_lt_iff])]
  exact fails_throw _

/-- Both clients settle on the same head and the same first block. -/
theorem yields_scanWindow (world : World) (hSettings : SameSettings self.config options) (hSame : Same ours theirs)
    (hDeployed : theirs.registry.deploymentBlock ≤ (world.head self.config).number) :
    ∃ start, Yields world.registry (Ethereum.findStartBlock theirs.registry.deploymentBlock
        (world.head self.config).number
        (saturatingSub (world.head self.config).timestamp theirs.registry.maxTtlSeconds.toUInt64)) start ∧
      Yields world.rpc (scanWindow ours options)
        ⟨(world.head self.config).number.toNat, rpcBlock (world.head self.config), start.toNat⟩ := by
  obtain ⟨start, hRegistry, hRpc⟩ := yields_findStartBlock world hDeployed
    (saturatingSub (world.head self.config).timestamp theirs.registry.maxTtlSeconds.toUInt64)
  refine ⟨start, hRegistry, ?_⟩
  rw [scanWindow]
  refine yields_getBlock_latest.bind ?_
  dsimp only
  have hNot : ¬ (world.head self.config).number.toNat < ours.registry.deploymentBlock := by
    rw [hSame.deploymentBlock, toNat_lt_iff]
    exact UInt64.not_lt.mpr hDeployed
  have hTtl : ours.registry.maxTtlSeconds = theirs.registry.maxTtlSeconds.toUInt64.toNat := by
    rw [hSame.maxTtl, UInt32.toNat_toUInt64]
  rw [confirmedNumber_eq hSettings, if_neg hNot, hSettings.maxBlockLookback]
  refine (yields_confirmedBlock self.config).bind (Yields.bind ?_ (yields_pure _))
  rw [bigInt_timestamp, hTtl, oldestLive_eq, hSame.deploymentBlock]
  exact hRpc

/-- The world is the one of the descriptor. -/
def World.Conforms (world : World) (theirs : Core.NetworkDescriptor) : Prop :=
  world.chainId = theirs.registry.chainId ∧ world.constants theirs.registry.address = Ethereum.v1Constants

theorem bigInt_uint32 (value : UInt32) : bigInt (hexText (Hex.ofNat 64 value.toNat)) = value.toNat := by
  have hLt : value.toNat < 16 ^ 64 := value.toNat_lt.trans (by decide)
  rw [bigInt_hexText, number_ofNat_of_lt hLt]

theorem readConstant_answered (name : String) {text : String} {answer : Except String Json} (hAnswer : answer = .ok (.string text))
    (hText : isHexValue text) : (do
      let value ← answer
      let text ← asHex value name
      pure (bigInt text)) = Except.ok (bigInt text) := by
  have hHex : asHex (.string text) name = .ok text := hexValue_string _ hText
  rw [hAnswer]
  change (do
    let text ← asHex (.string text) name
    pure (bigInt text)) = _
  rw [hHex]
  rfl

theorem answer_ethCall {selector : String} {value : UInt32} (hSame : Same ours theirs)
    (h : world.constant theirs.registry.address selector = some value) (state : List (Nat × Nat)) :
    world.rpc.answer state (.ethCall ours.registry.address selector) =
      .ok (.string (hexText (Hex.ofNat 64 value.toNat))) := by
  simp only [World.rpc, hSame.addressOf, h]

theorem yields_readConstant {selector name : String} {value : UInt32} (hSame : Same ours theirs)
    (h : world.constant theirs.registry.address selector = some value) :
    Yields world.rpc (ExceptT.lift (ε := String) (readConstant ours.registry.address selector name)) (.ok value.toNat) := by
  intro state
  have hValue := readConstant_answered name (answer_ethCall hSame h state) (isHexValue_word _)
  rw [bigInt_uint32] at hValue
  exact congrArg (fun result => (Except.ok result, state)) hValue

theorem yields_readConstants (hSame : Same ours theirs) :
    Yields world.rpc (readConstants ours.registry.address) ((world.constants theirs.registry.address).version.toNat,
      (world.constants theirs.registry.address).maxTtl.toNat,
      (world.constants theirs.registry.address).maxRecordBytes.toNat) :=
  (yields_readConstant hSame rfl).bind <| (yields_readConstant hSame rfl).bind <|
    (yields_readConstant hSame rfl).bind (yields_checked world rfl)

theorem yields_chainId {β : Type} {f : Json → ScanM β} {result : β}
    (h : Yields world.rpc (f (.string (quantity world.chainId.val))) result) :
    Yields world.rpc (request .ethChainId >>= f) result := (yields_attempt fun _ => rfl).bind h

theorem asHex_quantity (n : Nat) (field : String) : asHex (.string (quantity n)) field = .ok (quantity n) :=
  hexValue_string _ (isHexValue_quantity n)

theorem eq_v1Constants_iff {constants : Ethereum.RegistryConstants} : constants = Ethereum.v1Constants ↔
    constants.version.toNat = 1 ∧ constants.maxTtl.toNat = 7776000 ∧ constants.maxRecordBytes.toNat = 4096 := by
  obtain ⟨version, maxTtl, maxRecordBytes⟩ := constants
  simp only [Ethereum.v1Constants, Ethereum.RegistryConstants.mk.injEq, ← UInt32.toNat_inj]
  rfl

theorem yields_verifyProvider (hSame : Same ours theirs) (hValid : theirs.Valid) (h : world.Conforms theirs) :
    Yields world.rpc (verifyProvider ours) () := by
  obtain ⟨hChain, hConstants⟩ := h
  have hOurs : ours.registry.maxTtlSeconds = 7776000 := by
    rw [hSame.maxTtl, hValid.maxTtl]
    rfl
  rw [verifyProvider]
  refine yields_chainId ((yields_checked world (asHex_quantity _ _)).bind ?_)
  rw [bigInt_quantity, hSame.chainId, hChain, if_neg (not_not.mpr rfl)]
  refine (yields_readConstants hSame).bind ?_
  dsimp only
  rw [hConstants, hOurs]
  exact yields_pure ()

theorem fails_verifyProvider (hSame : Same ours theirs) (h : ¬ world.Conforms theirs) :
    Fails world.rpc (verifyProvider ours) := by
  rw [verifyProvider]
  refine Yields.bind_fails (yields_attempt fun _ => rfl) ((yields_checked world (asHex_quantity _ _)).bind_fails ?_)
  rw [bigInt_quantity, hSame.chainId]
  split
  · exact fails_throw _
  rename_i hChain
  refine (yields_readConstants hSame).bind_fails ?_
  dsimp only
  rw [if_pos]
  · exact fails_throw _
  · have hChainId : world.chainId = theirs.registry.chainId := Fin.ext (not_not.mp hChain)
    have hConstants := mt (And.intro hChainId) h
    rw [eq_v1Constants_iff] at hConstants
    omega

end Prelude

section Score

variable {ours : NetworkDescriptor} {theirs : Core.NetworkDescriptor} {keccak256 : Bytes → B256}

/-- What the browser client ranks a peer by under a head. -/
def browserScore (keccak256 : Bytes → B256) (hash ns : B256) (peerId : String) : B256 :=
  keccak256 (beBytes 32 hash.val ++ (beBytes 32 ns.val ++ peerId.toUTF8.data.toList))

theorem score_eq (hSame : Same ours theirs) (block : BlockInfo) (peerId : String) :
    score keccak256 ours.namespace (rpcBlock block).hash peerId =
      .ok (browserScore keccak256 block.hash theirs.namespace.bytes peerId).val := by
  have hName := bytes?_eq_some.mp hSame.name
  have hHash : (rpcBlock block).hash = hexText (Hex.ofNat (32 * 2) block.hash.val) := rfl
  have hBytes : hexToBytes (concat [(rpcBlock block).hash, ours.namespace, hexText (spell peerId.toUTF8.data.toList)]) =
      .ok (beBytes 32 block.hash.val ++ (beBytes 32 theirs.namespace.bytes.val ++ peerId.toUTF8.data.toList)) := by
    rw [concat, List.flatMap_cons, List.flatMap_cons, List.flatMap_cons, List.flatMap_nil, hHash, drop_hexText, drop_hexText]
    apply hexToBytes_hexText
    rw [List.append_nil, List.map_append, List.map_append, map_toLower_ofNat, hName, map_toLower_spell, spell_append,
      spell_append, spell_beBytes, spell_beBytes]
  rw [score, hBytes]
  rfl

end Score

/-- What is made of a log, in the terms of both clients. -/
structure Verdict where
  identity : Bytes
  sequence : Nat
  block : Nat
  logIndex : Nat
  deriving DecidableEq, Repr

def Verdict.freshness (verdict : Verdict) : ℕ ×ₗ ℕ ×ₗ ℕ :=
  toLex (verdict.sequence, toLex (verdict.block, verdict.logIndex))

def registryVerdict (candidate : PeerCandidate) : Verdict where
  identity := candidate.identityKey
  sequence := candidate.sequence.toNat
  block := (candidate.announcementBlock.getD 0).toNat
  logIndex := (candidate.announcementLogIndex.getD 0).toNat

def browserVerdict (identity : String → Bytes) (candidate : BrowserPeerCandidate) : Verdict where
  identity := identity candidate.peerId
  sequence := candidate.sequence
  block := candidate.blockNumber
  logIndex := candidate.logIndex

def verdictIds (logs : List Announcement) (verdict : Announcement → Option Verdict) : Set Bytes :=
  {identity | ∃ log ∈ logs, ∃ shared ∈ verdict log, shared.identity = identity}

def decodedIds (logs : List Announcement) (decode : Announcement → Option BrowserPeerCandidate) : Set String :=
  {peerId | ∃ log ∈ logs, ∃ candidate ∈ decode log, candidate.peerId = peerId}

/-- Of every log both clients make the same, and they rank the identities alike, no two the same. -/
structure SharedVerdict (logs : List Announcement) (validate : Announcement → Option PeerCandidate)
    (decode : Announcement → Option BrowserPeerCandidate) (verdict : Announcement → Option Verdict)
    (identity : String → Bytes) (rank : Bytes → B256) (browserRank : String → B256) : Prop where
  registry : ∀ log ∈ logs, (validate log).map registryVerdict = verdict log
  browser : ∀ log ∈ logs, (decode log).map (browserVerdict identity) = verdict log
  identity_inj : Set.InjOn identity (decodedIds logs decode)
  rank_inj : Set.InjOn rank (verdictIds logs verdict)
  rank_lt : ∀ j ∈ decodedIds logs decode, ∀ k ∈ decodedIds logs decode,
    rank (identity j) < rank (identity k) ↔ browserRank j < browserRank k

section Verdicts

variable {logs part : List Announcement} {validate : Announcement → Option PeerCandidate}
  {decode : Announcement → Option BrowserPeerCandidate} {verdict : Announcement → Option Verdict}
  {identity : String → Bytes} {rank : Bytes → B256} {browserRank : String → B256}

theorem SharedVerdict.map_validate (h : SharedVerdict logs validate decode verdict identity rank browserRank)
    (hPart : part ⊆ logs) : (part.filterMap validate).map registryVerdict = part.filterMap verdict := by
  rw [List.map_filterMap]
  exact List.filterMap_congr fun log hLog => h.registry log (hPart hLog)

theorem SharedVerdict.map_decode (h : SharedVerdict logs validate decode verdict identity rank browserRank)
    (hPart : part ⊆ logs) : (part.filterMap decode).map (browserVerdict identity) = part.filterMap verdict := by
  rw [List.map_filterMap]
  exact List.filterMap_congr fun log hLog => h.browser log (hPart hLog)

theorem SharedVerdict.isNone_eq (h : SharedVerdict logs validate decode verdict identity rank browserRank)
    {log : Announcement} (hLog : log ∈ logs) : (validate log).isNone = (decode log).isNone := by
  rw [← Option.isNone_map (f := registryVerdict), h.registry log hLog, ← h.browser log hLog, Option.isNone_map]

theorem mem_decodedIds (hPart : part ⊆ logs) {peerId : String}
    (h : peerId ∈ identities BrowserPeerCandidate.peerId (part.filterMap decode)) : peerId ∈ decodedIds logs decode := by
  obtain ⟨candidate, hCandidate, hPeer⟩ := mem_identities.mp h
  obtain ⟨log, hLog, hDecode⟩ := List.mem_filterMap.mp hCandidate
  exact ⟨log, hPart hLog, candidate, hDecode, hPeer⟩

theorem SharedVerdict.mem_verdictIds (h : SharedVerdict logs validate decode verdict identity rank browserRank)
    (hPart : part ⊆ logs) {key : Bytes} (hKey : key ∈ identities PeerCandidate.identityKey (part.filterMap validate)) :
    key ∈ verdictIds logs verdict := by
  obtain ⟨candidate, hCandidate, hIdent⟩ := mem_identities.mp hKey
  obtain ⟨log, hLog, hValidate⟩ := List.mem_filterMap.mp hCandidate
  refine ⟨log, hPart hLog, registryVerdict candidate, ?_, hIdent⟩
  rw [← h.registry log (hPart hLog), hValidate]
  rfl

theorem registry_renames (offers : List PeerCandidate) (rank : Bytes → B256) :
    Renames PeerCandidate.identityKey PeerCandidate.freshness rank registryVerdict id Verdict.identity Verdict.freshness
      rank offers where
  key_eq _ _ := rfl
  age_eq _ _ := rfl
  name_inj _ _ _ _ hEq := hEq
  rank_lt _ _ _ _ := Iff.rfl

theorem SharedVerdict.browser_renames (h : SharedVerdict logs validate decode verdict identity rank browserRank)
    (hPart : part ⊆ logs) : Renames BrowserPeerCandidate.peerId BrowserPeerCandidate.freshness
      (fun peerId => (browserRank peerId).val) (browserVerdict identity) identity Verdict.identity Verdict.freshness rank
      (part.filterMap decode) where
  key_eq _ _ := rfl
  age_eq _ _ := rfl
  name_inj _ hj _ hk hEq := h.identity_inj (mem_decodedIds hPart hj) (mem_decodedIds hPart hk) hEq
  rank_lt j hj k hk := h.rank_lt j (mem_decodedIds hPart hj) k (mem_decodedIds hPart hk)

theorem SharedVerdict.identity_mem (h : SharedVerdict logs validate decode verdict identity rank browserRank)
    {peerId : String} (hPeer : peerId ∈ decodedIds logs decode) : identity peerId ∈ verdictIds logs verdict := by
  obtain ⟨log, hLog, candidate, hDecode, rfl⟩ := hPeer
  refine ⟨log, hLog, browserVerdict identity candidate, ?_, rfl⟩
  rw [← h.browser log hLog, hDecode]
  rfl

theorem SharedVerdict.browserRank_inj (h : SharedVerdict logs validate decode verdict identity rank browserRank)
    (hPart : part ⊆ logs) : Set.InjOn (fun peerId => (browserRank peerId).val)
      (identities BrowserPeerCandidate.peerId (part.filterMap decode)) := by
  intro j hj k hk hEq
  have hj' := mem_decodedIds hPart hj
  have hk' := mem_decodedIds hPart hk
  have hSame : browserRank j = browserRank k := Fin.ext hEq
  have hNot : ¬ rank (identity j) < rank (identity k) := by
    rw [h.rank_lt j hj' k hk', hSame]
    exact lt_irrefl _
  have hNot' : ¬ rank (identity k) < rank (identity j) := by
    rw [h.rank_lt k hk' j hj', hSame]
    exact lt_irrefl _
  have hRank := le_antisymm (not_lt.mp hNot') (not_lt.mp hNot)
  exact h.identity_inj hj' hk' (h.rank_inj (h.identity_mem hj') (h.identity_mem hk') hRank)

end Verdicts

section Stores

variable {logs part : List Announcement} {validate : Announcement → Option PeerCandidate}
  {decode : Announcement → Option BrowserPeerCandidate} {verdict : Announcement → Option Verdict}
  {identity : String → Bytes} {browserRank : String → B256} {keccak256 : Bytes → B256} {seed : B256} {cap : Nat}
  {store : Candidates}

/-- The rank of an identity under the node's sampling seed. -/
def seededRank (keccak256 : Bytes → B256) (seed : B256) (identityKey : Bytes) : B256 :=
  keccak256 (Core.toBytes32 seed ++ identityKey)

theorem mem_ranked_iff (h : SharedVerdict logs validate decode verdict identity (seededRank keccak256 seed) browserRank)
    (hPart : part ⊆ logs) (hCap : 0 < cap) {shared : Verdict} :
    shared ∈ (((CandidateStore.new ⟨cap, seed⟩).insertAll keccak256 (part.filterMap validate)).ranked keccak256).map
        registryVerdict ↔
      Kept Verdict.identity Verdict.freshness cap (seededRank keccak256 seed) (part.filterMap verdict) shared := by
  have hSamples := CandidateStore.samples_insertAll keccak256 ⟨cap, seed⟩ (part.filterMap validate)
  have hScore : ((CandidateStore.new ⟨cap, seed⟩).insertAll keccak256 (part.filterMap validate)).score keccak256 =
      seededRank keccak256 seed := funext (CandidateStore.score_insertAll keccak256 _ _)
  have hMax : ((CandidateStore.new ⟨cap, seed⟩).insertAll keccak256 (part.filterMap validate)).config.maxCandidates =
      cap := by
    rw [CandidateStore.config_insertAll]
    exact max_eq_left hCap
  have hInj : Set.InjOn (seededRank keccak256 seed) (identities PeerCandidate.identityKey (part.filterMap validate)) :=
    fun j hj k hk => h.rank_inj (h.mem_verdictIds hPart hj) (h.mem_verdictIds hPart hk)
  rw [CandidateStore.Samples, hScore, hMax] at hSamples
  rw [← h.map_validate hPart, (registry_renames _ _).kept_iff, List.mem_map]
  apply exists_congr
  intro candidate
  rw [CandidateStore.mem_ranked]
  exact and_congr_left' ((hSamples.get_eq_some_iff hInj).trans (and_iff_right rfl))

theorem mem_values_iff (h : SharedVerdict logs validate decode verdict identity (seededRank keccak256 seed) browserRank)
    (hPart : part ⊆ logs)
    (hStore : Samples cap (fun peerId => (browserRank peerId).val) (part.filterMap decode) store) {shared : Verdict} :
    shared ∈ (store.entries.map (·.2)).map (browserVerdict identity) ↔
      Kept Verdict.identity Verdict.freshness cap (seededRank keccak256 seed) (part.filterMap verdict) shared := by
  rw [← h.map_decode hPart, (h.browser_renames hPart).kept_iff, List.mem_map]
  apply exists_congr
  intro candidate
  apply and_congr_left
  intro _
  rw [List.mem_map]
  constructor
  · rintro ⟨⟨peerId, held⟩, hEntry, rfl⟩
    exact ((hStore.get_eq_some_iff (h.browserRank_inj hPart)).mp (AList.mem_lookup_iff.mpr hEntry)).2
  · intro hKept
    have hLookup := (hStore.get_eq_some_iff (h.browserRank_inj hPart)).mpr ⟨rfl, hKept⟩
    exact ⟨⟨candidate.peerId, candidate⟩, AList.mem_lookup_iff.mp hLookup, rfl⟩

theorem entry_of_mem (h : SharedVerdict logs validate decode verdict identity (seededRank keccak256 seed) browserRank)
    (hPart : part ⊆ logs)
    (hStore : Samples cap (fun peerId => (browserRank peerId).val) (part.filterMap decode) store)
    {entry : Sigma fun _ : String => BrowserPeerCandidate} (hEntry : entry ∈ store.entries) :
    entry.2.peerId = entry.1 ∧ entry.2.peerId ∈ decodedIds logs decode := by
  obtain ⟨hPeer, hKept⟩ :=
    (hStore.get_eq_some_iff (h.browserRank_inj hPart)).mp (AList.mem_lookup_iff.mpr hEntry)
  exact ⟨hPeer, mem_decodedIds hPart (mem_identities.mpr ⟨entry.2, hKept.1.mem, rfl⟩)⟩

/-- Both stores hold the same verdicts, each once. -/
theorem stores_agree (h : SharedVerdict logs validate decode verdict identity (seededRank keccak256 seed) browserRank)
    (hPart : part ⊆ logs) (hCap : 0 < cap)
    (hStore : Samples cap (fun peerId => (browserRank peerId).val) (part.filterMap decode) store) :
    ((store.entries.map (·.2)).map (browserVerdict identity)).Perm
      ((((CandidateStore.new ⟨cap, seed⟩).insertAll keccak256 (part.filterMap validate)).ranked keccak256).map
        registryVerdict) := by
  refine (List.perm_ext_iff_of_nodup ?_ ?_).mpr fun shared =>
    (mem_values_iff h hPart hStore).trans (mem_ranked_iff h hPart hCap).symm
  · rw [List.map_map]
    refine List.Nodup.map_on ?_ store.nodupKeys.nodup
    rintro ⟨j, left⟩ hLeft ⟨k, right⟩ hRight hEq
    obtain ⟨hj, hLeftId⟩ := entry_of_mem h hPart hStore hLeft
    obtain ⟨hk, hRightId⟩ := entry_of_mem h hPart hStore hRight
    have hPeer : left.peerId = right.peerId := h.identity_inj hLeftId hRightId (congrArg Verdict.identity hEq)
    obtain rfl : j = k := hj.symm.trans (hPeer.trans hk)
    have hSome : some left = some right :=
      (AList.mem_lookup_iff.mpr hLeft).symm.trans (AList.mem_lookup_iff.mpr hRight)
    rw [Option.some.inj hSome]
  · have hNodup := CandidateStore.nodup_ranked keccak256
      ((CandidateStore.new ⟨cap, seed⟩).insertAll keccak256 (part.filterMap validate))
    apply List.Nodup.of_map Verdict.identity
    rwa [List.map_map]

end Stores

section Chunks

variable {keccak256 browserKeccak256 : Bytes → B256} {self : RegistryScanner} {theirs : Core.NetworkDescriptor}
  {decodeBrowserPeerRecord : String → Nat → Nat → Nat → RecordOptions → Except String BrowserPeerCandidate}
  {ours : NetworkDescriptor} {options : ScanOptions} {head : BlockInfo} {seed : B256}
  {verdict : Announcement → Option Verdict} {identity : String → Bytes}

/-- What the node makes of a log. -/
def validated (self : RegistryScanner) (theirs : Core.NetworkDescriptor) (head : BlockInfo) (log : Announcement) :
    Option PeerCandidate :=
  (self.codecs.validateAnnouncement log (self.policy theirs Ethereum.v1Constants head)).toOption

/-- What the browser client makes of the same log. -/
def World.decodes (world : World)
    (decodeBrowserPeerRecord : String → Nat → Nat → Nat → RecordOptions → Except String BrowserPeerCandidate)
    (ours : NetworkDescriptor) (options : ScanOptions) (head : BlockInfo) (log : Announcement) :
    Option BrowserPeerCandidate :=
  (decodeLog decodeBrowserPeerRecord ours options head.timestamp.toNat (world.rpcLog log)).toOption

/-- Both have counted and rejected as many logs, and their stores have been offered what they make of the same ones. -/
structure ProgressAlike (world : World) (keccak256 browserKeccak256 : Bytes → B256) (scanner : RegistryScanner)
    (theirs : Core.NetworkDescriptor)
    (decodeBrowserPeerRecord : String → Nat → Nat → Nat → RecordOptions → Except String BrowserPeerCandidate)
    (ours : NetworkDescriptor) (options : ScanOptions) (head : BlockInfo) (seed : B256)
    (progress : Ethereum.LogProgress) (other : LogProgress) : Prop where
  logsProcessed : other.logsProcessed = progress.logsProcessed
  recordsRejected : other.recordsRejected = progress.recordsRejected
  stores : ∃ part ⊆ world.chain.logs theirs.registry.address theirs.namespace,
    progress.candidates = (CandidateStore.new ⟨scanner.config.maxCandidates, seed⟩).insertAll keccak256
      (part.filterMap (validated scanner theirs head)) ∧
    Samples scanner.config.maxCandidates
      (fun peerId => (browserScore browserKeccak256 head.hash theirs.namespace.bytes peerId).val)
      (part.filterMap (world.decodes decodeBrowserPeerRecord ours options head)) other.candidates

theorem toNat_maxCandidates (h : SameSettings self.config options) :
    (options.maxCandidates.getD 256).toNat = self.config.maxCandidates := by
  rw [h.maxCandidates, Option.getD_some, Int.toNat_natCast]

/-- The logs of one chunk, the same to both, keep the two alike. -/
theorem ProgressAlike.foldl (hSettings : SameSettings self.config options) (hSame : Same ours theirs)
    (hVerdict : SharedVerdict (world.chain.logs theirs.registry.address theirs.namespace) (validated self theirs head)
      (world.decodes decodeBrowserPeerRecord ours options head) verdict identity (seededRank keccak256 seed)
      (browserScore browserKeccak256 head.hash theirs.namespace.bytes))
    {progress : Ethereum.LogProgress} {other : LogProgress} (h : ProgressAlike world keccak256 browserKeccak256 self theirs
      decodeBrowserPeerRecord ours options head seed progress other) {logs : List Announcement}
    (hLogs : logs ⊆ world.chain.logs theirs.registry.address theirs.namespace) :
    ProgressAlike world keccak256 browserKeccak256 self theirs decodeBrowserPeerRecord ours options head seed
      (logs.foldl (self.processAnnouncement keccak256 (self.policy theirs Ethereum.v1Constants head)) progress)
      ((logs.map world.rpcLog).foldl
        (processLog browserKeccak256 decodeBrowserPeerRecord ours options (rpcBlock head)) other) := by
  obtain ⟨part, hPart, hRegistry, hBrowser⟩ := h.stores
  have hCap := toNat_maxCandidates hSettings
  obtain ⟨store, hFold, hStore⟩ := @foldl_processLog browserKeccak256 decodeBrowserPeerRecord ours
    options (rpcBlock head) _ (score_eq hSame head) (by rw [hCap]; exact hSettings.maxCandidates_pos) _ (logs.map world.rpcLog)
    other (hCap.symm ▸ hBrowser)
  rw [Ethereum.foldl_processAnnouncement, hFold]
  have hClock := bigInt_timestamp head
  refine ⟨?_, ?_, part ++ logs, List.append_subset.mpr ⟨hPart, hLogs⟩, ?_, ?_⟩
  · change other.logsProcessed + (logs.map world.rpcLog).length = progress.logsProcessed + logs.length
    rw [List.length_map, h.logsProcessed]
  · change other.recordsRejected + _ = progress.recordsRejected + _
    rw [h.recordsRejected, undecoded, List.countP_map, Ethereum.rejections, hClock]
    congr 1
    apply List.countP_congr
    intro log hLog
    have hNone := hVerdict.isNone_eq (hLogs hLog)
    exact iff_of_eq (congrArg (· = true) hNone.symm)
  · change progress.candidates.insertAll keccak256 _ = _
    rw [hRegistry, List.filterMap_append, CandidateStore.insertAll_append]
    rfl
  · rw [hCap, decoded, List.filterMap_map, hClock] at hStore
    rw [List.filterMap_append]
    exact hStore

theorem toNat_chunkEnd {fromBlock chunkSize last : UInt64} (h : 0 < chunkSize.toNat) :
    (Ethereum.chunkEnd fromBlock chunkSize last).toNat = chunkEnd fromBlock.toNat chunkSize.toNat last.toNat := by
  have hLast := last.toNat_lt
  have hOne : (1 : UInt64).toNat = 1 := rfl
  rw [Ethereum.chunkEnd, toNat_min, toNat_saturatingAdd, toNat_saturatingSub, chunkEnd, hOne]
  omega

/-- What the browser client reads of the answer to a log request. -/
theorem answer_ethGetLogs (hSame : Same ours theirs) (topic : String) (fromBlock toBlock : UInt64)
    (state : List (Nat × Nat)) :
    (world.rpc.answer state (.ethGetLogs ours.registry.address [topic, ours.namespace] (quantity fromBlock.toNat)
      (quantity toBlock.toNat)) >>= asLogs) =
      match world.fails state fromBlock.toNat toBlock.toNat with
      | some failure => .error failure.message
      | none => .ok ((world.chain.logsIn theirs.registry.address theirs.namespace fromBlock toBlock).map
          world.rpcLog) := by
  change ((match world.fails state (bigInt (quantity fromBlock.toNat)) (bigInt (quantity toBlock.toNat)) with
    | some failure => Except.error failure.message
    | none => .ok (.array ((world.chain.logsIn (World.addressOf ours.registry.address)
        (World.namespaceOf [topic, ours.namespace]) (UInt64.ofNat (bigInt (quantity fromBlock.toNat)))
        (UInt64.ofNat (bigInt (quantity toBlock.toNat)))).map fun log => logJson (world.rpcLog log)))) >>= asLogs) = _
  rw [bigInt_quantity, bigInt_quantity, UInt64.ofNat_toNat, UInt64.ofNat_toNat, hSame.addressOf, hSame.namespaceOf]
  cases world.fails state fromBlock.toNat toBlock.toNat with
  | some failure => rfl
  | none =>
    change asLogs (.array ((world.chain.logsIn theirs.registry.address theirs.namespace fromBlock toBlock).map
      fun log => logJson (world.rpcLog log))) = _
    have hMap : ((world.chain.logsIn theirs.registry.address theirs.namespace fromBlock toBlock).map
        fun log => logJson (world.rpcLog log)) =
          ((world.chain.logsIn theirs.registry.address theirs.namespace fromBlock toBlock).map world.rpcLog).map logJson :=
      by rw [List.map_map]; rfl
    rw [hMap]
    apply asLogs_logJson
    intro log hLog
    obtain ⟨announcement, -, rfl⟩ := List.mem_map.mp hLog
    exact world.wellFormed announcement

theorem next_ethGetLogs (address : String) (topics : List String) (theirAddress : Address) (ns : Core.Namespace)
    (fromBlock toBlock : UInt64) (state : List (Nat × Nat)) :
    world.registry.next state (.announcements theirAddress ns fromBlock toBlock) =
      world.rpc.next state (.ethGetLogs address topics (quantity fromBlock.toNat) (quantity toBlock.toNat)) := by
  change state ++ [(fromBlock.toNat, toBlock.toNat)] =
    state ++ [(bigInt (quantity fromBlock.toNat), bigInt (quantity toBlock.toNat))]
  rw [bigInt_quantity, bigInt_quantity]

/-- Chunk for chunk, refusal for refusal, both read the same logs and halve the same chunks. -/
theorem lockstep_scanLoop (hSettings : SameSettings self.config options) (hSame : Same ours theirs)
    (hVerdict : SharedVerdict (world.chain.logs theirs.registry.address theirs.namespace) (validated self theirs head)
      (world.decodes decodeBrowserPeerRecord ours options head) verdict identity (seededRank keccak256 seed)
      (browserScore browserKeccak256 head.hash theirs.namespace.bytes)) {minimumChunkSize fromBlock chunkSize : UInt64}
    (hMinimum : minimumChunkSize = self.config.minimumChunkSize) (hChunk : 0 < chunkSize.toNat) {chunkReductions : Nat}
    {progress : Ethereum.LogProgress} {other : LogProgress} (h : ProgressAlike world keccak256 browserKeccak256 self theirs
      decodeBrowserPeerRecord ours options head seed progress other) :
    Lockstep world.registry world.rpc (fun left right => ProgressAlike world keccak256 browserKeccak256 self theirs
        decodeBrowserPeerRecord ours options head seed left.1 right.1 ∧ right.2 = left.2)
      (self.scanLoop keccak256 theirs Ethereum.v1Constants head minimumChunkSize fromBlock chunkSize chunkReductions progress)
      (scanChunks browserKeccak256 decodeBrowserPeerRecord ours options head.number.toNat (rpcBlock head) fromBlock.toNat
        chunkSize.toNat chunkReductions other) := by
  have hMaxLogs : (options.maxLogs.getD 50000).toNat = self.config.maxLogsPerScan := by
    rw [hSettings.maxLogs, Option.getD_some, Int.toNat_natCast]
  have hMinimumChunk : (options.minimumChunkSize.getD 64).toNat = minimumChunkSize.toNat := by
    rw [hSettings.minimumChunkSize, Option.getD_some, Int.toNat_natCast, hMinimum]
  fun_induction RegistryScanner.scanLoop self keccak256 theirs Ethereum.v1Constants head minimumChunkSize fromBlock
    chunkSize chunkReductions progress generalizing other
  case case1 fromBlock chunkSize chunkReductions progress hRange last ihNext ihReduced =>
    have hLast : last.toNat = chunkEnd fromBlock.toNat chunkSize.toNat head.number.toNat := toNat_chunkEnd hChunk
    have hRangeNat : fromBlock.toNat ≤ head.number.toNat ∧ other.logsProcessed < self.config.maxLogsPerScan :=
      ⟨UInt64.le_iff_toNat_le.mp hRange.1, h.logsProcessed ▸ hRange.2⟩
    clear_value last
    rw [scanChunks, ← hLast, hMaxLogs, hMinimumChunk]
    dsimp only
    rw [dif_pos hRangeNat]
    refine Lockstep.ask_bind (next_ethGetLogs _ _ _ _ _ _) fun state => ?_
    rw [answer_ethGetLogs hSame]
    have hAnswer : world.registry.answer state (.announcements theirs.registry.address theirs.namespace fromBlock last) =
        match world.fails state fromBlock.toNat last.toNat with
        | some failure => .error failure.error
        | none => .ok (world.chain.logsIn theirs.registry.address theirs.namespace fromBlock last) := rfl
    rw [hAnswer]
    cases world.fails state fromBlock.toNat last.toNat with
    | some failure =>
      dsimp only
      by_cases hClass : isRangeError failure.message
      · obtain ⟨text, hError⟩ := failure.sameClass.mp hClass
        rw [hError]
        dsimp only
        by_cases hReduce : minimumChunkSize < chunkSize
        · have hSize : max (chunkSize.toNat / 2) minimumChunkSize.toNat = (max (chunkSize / 2) minimumChunkSize).toNat := by
            rw [toNat_max, UInt64.toNat_div]
            rfl
          have hMinimumPos := hSettings.minimumChunkSize_pos
          rw [← hMinimum] at hMinimumPos
          rw [dif_pos hReduce, dif_pos ⟨toNat_lt_iff.mpr hReduce, hClass⟩, hSize]
          exact ihReduced hReduce (by rw [← hSize]; omega) h
        · rw [dif_neg hReduce, dif_neg fun hBoth => hReduce (toNat_lt_iff.mp hBoth.1)]
          exact Lockstep.throw
      · rw [dif_neg fun hBoth => hClass hBoth.2]
        cases hError : failure.error with
        | rangeLimit text => exact absurd (failure.sameClass.mpr ⟨text, hError⟩) hClass
        | configuration | request | unsupported | missing | readOnly => exact Lockstep.throw
    | none =>
      dsimp only
      have hLogs : (world.chain.logsIn theirs.registry.address theirs.namespace fromBlock last).take
          (self.config.maxLogsPerScan - progress.logsProcessed) ⊆
            world.chain.logs theirs.registry.address theirs.namespace :=
        fun log hLog => List.mem_of_mem_filter (List.mem_of_mem_take hLog)
      have hProgress := h.foldl hSettings hSame hVerdict hLogs
      rw [List.map_take] at hProgress
      rw [h.logsProcessed]
      by_cases hEnd : last = head.number
      · rw [dif_pos hEnd, dif_pos (congrArg UInt64.toNat hEnd)]
        exact Lockstep.pure ⟨hProgress, rfl⟩
      · have hBefore : last.toNat < head.number.toNat :=
          lt_of_le_of_ne (hLast ▸ chunkEnd_le _ _ _) (mt UInt64.toNat_inj.mp hEnd)
        rw [dif_neg hEnd, dif_neg (mt UInt64.toNat_inj.mp hEnd), ← toNat_add_one_of_lt hBefore]
        exact ihNext _ hEnd hChunk hProgress
  case case2 fromBlock chunkSize chunkReductions progress hRange =>
    have hRangeNat : ¬ (fromBlock.toNat ≤ head.number.toNat ∧ other.logsProcessed < self.config.maxLogsPerScan) := by
      rw [h.logsProcessed, ← UInt64.le_iff_toNat_le]
      exact hRange
    rw [scanChunks]
    simp only [hMaxLogs, dif_neg hRangeNat]
    exact Lockstep.pure ⟨h, rfl⟩

end Chunks

/-- The two reports agree on all they share, and on the verdicts they retain, in whatever order. -/
structure SameReport (identity : String → Bytes) (theirs : Ethereum.ScanReport) (ours : ScanReport) : Prop where
  headBlock : ours.headBlock = theirs.head.number.toNat
  startBlock : ours.startBlock = theirs.startBlock.toNat
  logsProcessed : ours.logsProcessed = theirs.logsProcessed
  recordsRejected : ours.recordsRejected = theirs.recordsRejected
  chunkReductions : ours.chunkReductions = theirs.chunkReductions
  candidates : (ours.candidates.map (browserVerdict identity)).Perm (theirs.candidates.map registryVerdict)

section Scan

variable {keccak256 browserKeccak256 : Bytes → B256} {self : RegistryScanner} {theirs : Core.NetworkDescriptor}
  {decodeBrowserPeerRecord : String → Nat → Nat → Nat → RecordOptions → Except String BrowserPeerCandidate}
  {localeCompare : String → String → Int} {ours : NetworkDescriptor} {options : ScanOptions} {localNodeId : Bytes}
  {verdict : Announcement → Option Verdict} {identity : String → Bytes}

/-- What the client accepts of the settings: caps that are safe integers. -/
structure SafeCaps (config : Ethereum.ScannerConfig) : Prop where
  maxLogs : config.maxLogsPerScan ≤ Numeral.maxSafeInteger
  maxCandidates : config.maxCandidates ≤ Numeral.maxSafeInteger

theorem positiveInteger_eq_ok {field : String} {value : Option Int}
    (h : ∀ limit ∈ value, 1 ≤ limit ∧ limit ≤ Numeral.maxSafeInteger) : positiveInteger field value = .ok () := by
  cases value with
  | none => rfl
  | some limit =>
    obtain ⟨hPos, hSafe⟩ := h limit rfl
    rw [positiveInteger, ensure_eq_ok, decide_eq_true_eq]
    exact ⟨by omega, hPos⟩

theorem validateOptions_eq_ok (h : SameSettings self.config options) (hCaps : SafeCaps self.config) :
    validateOptions options = .ok () := by
  have hInitial := h.initialChunkSize_pos
  have hMinimum := h.minimumChunkSize_pos
  have hMaxLogs : positiveInteger "maxLogs" options.maxLogs = .ok () := positiveInteger_eq_ok (by
    rw [h.maxLogs]
    rintro limit ⟨⟩
    exact ⟨Int.ofNat_le.mpr h.maxLogs_pos, Int.ofNat_le.mpr hCaps.maxLogs⟩)
  have hMaxCandidates : positiveInteger "maxCandidates" options.maxCandidates = .ok () := positiveInteger_eq_ok (by
    rw [h.maxCandidates]
    rintro limit ⟨⟩
    exact ⟨Int.ofNat_le.mpr h.maxCandidates_pos, Int.ofNat_le.mpr hCaps.maxCandidates⟩)
  rw [validateOptions, h.confirmations, h.maxBlockLookback, h.initialChunkSize, h.minimumChunkSize, hMaxLogs,
    hMaxCandidates, positiveInteger_eq_ok h.maxEndpoints, ensure_of (by simp), ensure_of (by simp),
    ensure_of (by rw [Option.getD_some]; omega), ensure_of (by rw [Option.getD_some]; omega)]
  rfl

theorem fails_scan (hValid : theirs.Valid) (h : ¬ world.Conforms theirs) :
    Fails world.registry (self.scan keccak256 theirs localNodeId none) := by
  rw [RegistryScanner.scan, Core.validate_eq_ok.mpr hValid]
  refine Yields.bind_fails (yields_attempt fun _ => rfl) ?_
  split
  · exact fails_throw _
  rename_i hChain
  refine Yields.bind_fails (yields_attempt fun _ => rfl) ?_
  split
  · exact fails_throw _
  · rename_i hConstants
    exact absurd ⟨not_not.mp hChain, Ethereum.verifyConstants_eq_ok hConstants⟩ h

theorem verifyConstants_v1 (hValid : theirs.Valid) : Ethereum.verifyConstants Ethereum.v1Constants theirs = .ok () := by
  rw [Ethereum.verifyConstants, hValid.maxTtl]
  rfl

theorem max_one_eq {size : UInt64} (h : 0 < size.toNat) : max size 1 = size := by
  have hOne : (1 : UInt64).toNat = 1 := rfl
  rw [← UInt64.toNat_inj, toNat_max, hOne]
  omega

theorem lockstep_scan (hSettings : SameSettings self.config options) (hCaps : SafeCaps self.config)
    (hSame : Same ours theirs) (hValid : theirs.Valid)
    (hVerdict : SharedVerdict (world.chain.logs theirs.registry.address theirs.namespace)
      (validated self theirs (world.head self.config))
      (world.decodes decodeBrowserPeerRecord ours options (world.head self.config)) verdict identity
      (seededRank keccak256 (RegistryScanner.samplingSeed keccak256 localNodeId (world.head self.config).hash
        theirs.namespace.bytes))
      (browserScore browserKeccak256 (world.head self.config).hash theirs.namespace.bytes)) :
    Lockstep world.registry world.rpc (SameReport identity) (self.scan keccak256 theirs localNodeId none)
      (scanRegistry browserKeccak256 decodeBrowserPeerRecord localeCompare ours options) := by
  have hOptions := yields_checked world (validateOptions_eq_ok hSettings hCaps)
  rw [scanRegistry]
  refine Lockstep.bind_right hOptions ?_
  by_cases hConforms : world.Conforms theirs
  · refine Lockstep.bind_right (yields_verifyProvider hSame hValid hConforms) ?_
    rw [RegistryScanner.scan, Core.validate_eq_ok.mpr hValid]
    refine Lockstep.bind_left (yields_attempt (a := world.chainId) fun _ => rfl) ?_
    rw [if_neg (not_not.mpr hConforms.1)]
    refine Lockstep.bind_left
      (yields_attempt (a := world.constants theirs.registry.address) fun _ => rfl) ?_
    rw [hConforms.2, verifyConstants_v1 hValid]
    refine Lockstep.bind_left (yields_confirmedHead hSettings) ?_
    by_cases hDeployed : (world.head self.config).number < theirs.registry.deploymentBlock
    · rw [if_pos hDeployed]
      exact Lockstep.of_fails (fails_throw _) ((fails_scanWindow hSettings hSame hDeployed).bind _)
    · rw [if_neg hDeployed]
      obtain ⟨start, hRegistry, hRpc⟩ := yields_scanWindow world hSettings hSame (UInt64.not_lt.mp hDeployed)
      refine Lockstep.bind_left (a := false) (yields_pure _) (Lockstep.bind_left hRegistry ?_)
      refine Lockstep.bind_right hRpc ?_
      have hInitial : (options.initialChunkSize.getD 10000).toNat = self.config.initialChunkSize.toNat := by
        rw [hSettings.initialChunkSize, Option.getD_some, Int.toNat_natCast]
      rw [RegistryScanner.scanLogs, bind_assoc, max_one_eq hSettings.minimumChunkSize_pos,
        max_one_eq hSettings.initialChunkSize_pos, hInitial]
      refine Lockstep.bind (lockstep_scanLoop hSettings hSame hVerdict rfl hSettings.initialChunkSize_pos
        ⟨rfl, rfl, [], List.nil_subset _, rfl, samples_empty⟩) ?_
      rintro ⟨progress, chunkReductions⟩ ⟨other, reductions⟩ ⟨hProgress, hReductions⟩
      obtain ⟨part, hPart, hRegistryStore, hBrowserStore⟩ := hProgress.stores
      refine Lockstep.pure ⟨rfl, rfl, hProgress.logsProcessed, hProgress.recordsRejected, hReductions, ?_⟩
      have hSorted := (List.perm_insertionSort (fun left right => compareCandidates localeCompare left right ≤ 0)
        (other.candidates.entries.map (·.2))).map (browserVerdict identity)
      have hAgree := stores_agree hVerdict hPart hSettings.maxCandidates_pos hBrowserStore
      rw [← hRegistryStore] at hAgree
      exact hSorted.trans hAgree
  · exact Lockstep.of_fails (fails_scan hValid hConforms) ((fails_verifyProvider hSame hConforms).bind _)

end Scan

/-- The two scanners agree wherever the client accepts the caps: before one world both fail, or both report the same
head, first block, counts and retained verdicts, having asked for the same log ranges. -/
theorem scanners_agree (world : World) (scanner : RegistryScanner) (theirs : Core.NetworkDescriptor)
    (ours : NetworkDescriptor) (options : ScanOptions) (localNodeId : Bytes) (keccak256 browserKeccak256 : Bytes → B256)
    (decodeBrowserPeerRecord : String → Nat → Nat → Nat → RecordOptions → Except String BrowserPeerCandidate)
    (localeCompare : String → String → Int) (verdict : Announcement → Option Verdict) (identity : String → Bytes)
    (hSettings : SameSettings scanner.config options) (hCaps : SafeCaps scanner.config) (hSame : Same ours theirs)
    (hValid : theirs.Valid)
    (hVerdict : SharedVerdict (world.chain.logs theirs.registry.address theirs.namespace)
      (validated scanner theirs (world.head scanner.config))
      (world.decodes decodeBrowserPeerRecord ours options (world.head scanner.config)) verdict identity
      (seededRank keccak256 (RegistryScanner.samplingSeed keccak256 localNodeId (world.head scanner.config).hash
        theirs.namespace.bytes))
      (browserScore browserKeccak256 (world.head scanner.config).hash theirs.namespace.bytes)) :
    Alike (SameReport identity) ((scanner.scan keccak256 theirs localNodeId none).run.play world.registry [])
      ((scanRegistry browserKeccak256 decodeBrowserPeerRecord localeCompare ours options).run.play world.rpc []) :=
  lockstep_scan hSettings hCaps hSame hValid hVerdict []

/-- A log of the daily descriptor as a node delivers it. -/
def dailyLog (log : Announcement) : RpcLog where
  address := dailyDescriptor.registry.address
  topics := [peerAnnouncedTopic, dailyDescriptor.namespace, hexText (Hex.ofNat 64 log.recordType.toNat)]
  data := hexText (spell ((Abi.encodeUintBytes log.validUntil.toNat log.peerRecord).getD [0]))
  blockNumber := quantity log.blockNumber.toNat
  logIndex := quantity log.logIndex.toNat
  removed := false

theorem isHexValue_daily : isHexValue dailyDescriptor.registry.address ∧ isHexValue peerAnnouncedTopic ∧
    isHexValue dailyDescriptor.namespace := by decide +kernel

theorem wellFormed_dailyLog (log : Announcement) : (dailyLog log).WellFormed where
  address := isHexValue_daily.1
  topics := by
    intro topic hTopic
    simp only [dailyLog, List.mem_cons, List.not_mem_nil, or_false] at hTopic
    obtain rfl | rfl | rfl := hTopic
    · exact isHexValue_daily.2.1
    · exact isHexValue_daily.2.2
    · exact isHexValue_word _
  data := by
    refine isHexValue_hexText (List.ne_nil_of_length_pos ?_) (all_isDigit_spell _)
    rw [length_spell]
    cases hRaw : Abi.encodeUintBytes log.validUntil.toNat log.peerRecord with
    | none => decide
    | some raw =>
      rw [Option.getD_some, Abi.length_encodeUintBytes hRaw]
      omega
  blockNumber := isHexValue_quantity _
  logIndex := isHexValue_quantity _

/-- The busy chain two blocks past block 100, behind a provider that refuses the first range it is asked for. -/
def busyWorld : World where
  chainId := 31337
  constants _ := Ethereum.v1Constants
  chain := Ethereum.busyChain
  hash number := (Ethereum.dailyBlock number).hash
  latest := 102
  rpcLog := dailyLog
  wellFormed := wellFormed_dailyLog
  fails
    | [], _, _ =>
        some ⟨.rangeLimit "block range too large", "block range too large", iff_of_true (by decide +kernel) ⟨_, rfl⟩⟩
    | _ :: _, _, _ => none

def cappedScanner (maxLogsPerScan : Nat) : RegistryScanner where
  codecs := Core.CodecRegistry.new.register Ethereum.twoByteCodec
  config := { Ethereum.developmentConfig with maxLogsPerScan, maxCandidates := 1 }

def cappedOptions (maxLogs : Nat) : ScanOptions :=
  ⟨some 2, none, some 20000, some 64, some maxLogs, some 1, none, none⟩

/-- The two-byte codec in the browser client, with the peer's byte as its text. -/
def twoByteRecord (record : String) (validUntil blockNumber logIndex : Nat) (_ : RecordOptions) :
    Except String BrowserPeerCandidate :=
  match bytes? (record.toList.drop 2) with
  | some [peer, sequence] => .ok {
      peerId := hexText (spell [peer])
      sequence := sequence.toNat
      endpoints := ["/ip4/8.8.8.8/tcp/4001"]
      rawSignedRecord := record
      validUntil
      blockNumber
      logIndex }
  | _ => .error "malformed peer record"

def twoByteIdentity (peerId : String) : Bytes :=
  Core.toBeBytes Core.recordTypeLibp2p ++ (bytes? (peerId.toList.drop 2)).getD []

/-- keccak256 on the inputs hashed below: the node's sampling seed and two identities under it, and the texts of two peers
under the head and the namespace. -/
def busyHash (input : Bytes) : B256 :=
  match input.length, input.getLast? with
  | 65, _ => 0x2702812d4241dd123d192e2fa24ab8713ffb7ac20bc933398db88534f2ffbb8f
  | 37, some 1 => 0x3bb45d1dbe68699f3b1867a3c606e29931376a1856c108ffb2813d88dabbb59c
  | 37, some 2 => 0x5ee85317f17fb96e4f0407ab540773f886ff4bcd4704ae52a7ea991b5232ea76
  | 68, some 49 => 0x1a87aac95715ff48efcf8bae50df6acfdbf3a2fc9ec413c9fd39dddc760f2cc2
  | 68, some 50 => 0x230e678e041bdd3892dacdda17d1ac4b8dbef00a0fe2057905df5d3819d1344e
  | _, _ => 0

def busyVerdict (log : Announcement) : Option Verdict :=
  (validated (cappedScanner 0) Ethereum.developmentDescriptor (Ethereum.dailyBlock 100) log).map registryVerdict

theorem same_development : Same dailyDescriptor Ethereum.developmentDescriptor where
  version := rfl
  chainId := rfl
  address := by decide +kernel
  deploymentBlock := rfl
  maxTtl := rfl
  name := by decide +kernel
  recordTypes := by decide +kernel

theorem valid_development : Ethereum.developmentDescriptor.Valid := Core.validate_eq_ok.mp (by decide)

theorem sameSettings_capped {maxLogs : Nat} (h : 0 < maxLogs) :
    SameSettings (cappedScanner maxLogs).config (cappedOptions maxLogs) where
  useFinalityTags := rfl
  maxBlockLookback := rfl
  confirmations := rfl
  initialChunkSize := rfl
  minimumChunkSize := rfl
  maxLogs := rfl
  maxCandidates := rfl
  initialChunkSize_pos := (by decide : 0 < (20000 : UInt64).toNat)
  minimumChunkSize_pos := (by decide : 0 < (64 : UInt64).toNat)
  maxLogs_pos := h
  maxCandidates_pos := Nat.one_pos
  maxEndpoints := by rintro _ ⟨⟩

/-- The verdict of the browser client on the sample logs, whatever its log cap. -/
def busyDecodes (log : Announcement) : Option BrowserPeerCandidate :=
  busyWorld.decodes twoByteRecord dailyDescriptor (cappedOptions 0) (busyWorld.block 100) log

theorem toLowerCase_topics : toLowerCase peerAnnouncedTopic = peerAnnouncedTopic := by decide +kernel

theorem decodeLog_of_accepted {decodeRecord : String → Nat → Nat → Nat → RecordOptions → Except String BrowserPeerCandidate}
    {ours : NetworkDescriptor} {options : ScanOptions} {now validUntil : Nat} {log : RpcLog} {topic record : String}
    (hSource : ¬ log.removed ∧ toLowerCase log.address = toLowerCase ours.registry.address)
    (hEvent : log.topics[0]?.map toLowerCase = some peerAnnouncedTopic ∧
      log.topics[1]?.map toLowerCase = some (toLowerCase ours.namespace))
    (hTopic : log.topics[2]? = some topic) (hType : bigInt topic ∈ ours.acceptedRecordTypes ∧ bigInt topic = 2)
    (hData : decodeAnnouncementData log.data = .ok (validUntil, record)) (hLive : now < validUntil) :
    decodeLog decodeRecord ours options now log = decodeRecord record validUntil (bigInt log.blockNumber)
      (bigInt log.logIndex) ⟨options.maxEndpointsPerRecord, options.allowPrivateEndpoints⟩ := by
  rw [decodeLog, ensure_of hSource, ensure_of hEvent, hTopic, hData]
  dsimp only
  rw [ensure_of hType]
  change (ensure (now < validUntil) _ >>= fun _ => decodeRecord record validUntil _ _ _) = _
  rw [ensure_of hLive]
  rfl

/-- The announcement data is read back by the round trip of the encoding, and the two bytes by evaluation. -/
theorem decodeLog_dailyLog {log : Announcement} (hType : log.recordType = Core.recordTypeLibp2p)
    (hLive : 100 * 86400 < log.validUntil.toNat) (hFits : log.peerRecord.length < Abi.wordLimit) :
    ∃ record, bytes? (record.toList.drop 2) = some log.peerRecord ∧
      busyDecodes log =
        (twoByteRecord record log.validUntil.toNat log.blockNumber.toNat log.logIndex.toNat ⟨none, none⟩).toOption := by
  obtain ⟨raw, hRaw⟩ : ∃ raw, Abi.encodeUintBytes log.validUntil.toNat log.peerRecord = some raw :=
    ⟨_, Abi.encodeUintBytes_eq_some.mpr ⟨hFits, rfl⟩⟩
  obtain ⟨⟨validUntil, record⟩, hDecoded, hReads, digits, hDigits, hBytes⟩ := decode_encoded hRaw (map_toLower_spell _)
  dsimp only at hReads hDigits
  subst hReads hDigits
  refine ⟨hexText digits, by rw [drop_hexText]; exact hBytes, ?_⟩
  have hTopic : bigInt (hexText (Hex.ofNat 64 log.recordType.toNat)) = 2 := by
    rw [hType, bigInt_hexText, number_ofNat_of_lt (by decide)]
    rfl
  have hData : (dailyLog log).data = hexText (spell raw) := by rw [dailyLog, hRaw, Option.getD_some]
  have hEvent : some (toLowerCase peerAnnouncedTopic) = some peerAnnouncedTopic ∧
      some (toLowerCase dailyDescriptor.namespace) = some (toLowerCase dailyDescriptor.namespace) :=
    ⟨congrArg some toLowerCase_topics, rfl⟩
  have hAccepted : (2 : Nat) ∈ dailyDescriptor.acceptedRecordTypes ∧ 2 = 2 := by decide
  rw [← hTopic] at hAccepted
  rw [← hData] at hDecoded
  have hDecodes := @decodeLog_of_accepted twoByteRecord dailyDescriptor (cappedOptions 0) _ _ (dailyLog log) _ _
    ⟨Bool.false_ne_true, rfl⟩ hEvent rfl ⟨hAccepted.1, hTopic⟩ hDecoded hLive
  rw [dailyLog, bigInt_quantity, bigInt_quantity] at hDecodes
  exact congrArg Except.toOption hDecodes

theorem busyLogs_live : ∀ log ∈ Ethereum.busyLogs, log.recordType = Core.recordTypeLibp2p ∧
    100 * 86400 < log.validUntil.toNat ∧ log.peerRecord.length < 4 := by decide

theorem busyDecodes_eq {log : Announcement} (hLog : log ∈ Ethereum.busyLogs) :
    ∃ record, busyDecodes log = match log.peerRecord with
      | [peer, sequence] => some ⟨hexText (spell [peer]), sequence.toNat, ["/ip4/8.8.8.8/tcp/4001"], record,
          log.validUntil.toNat, log.blockNumber.toNat, log.logIndex.toNat⟩
      | _ => none := by
  obtain ⟨hType, hLive, hFits⟩ := busyLogs_live log hLog
  obtain ⟨record, hBytes, hDecodes⟩ := decodeLog_dailyLog hType hLive (hFits.trans (by decide))
  refine ⟨record, ?_⟩
  rw [hDecodes, twoByteRecord, hBytes]
  rcases log.peerRecord with _ | ⟨peer, _ | ⟨sequence, _ | ⟨_, _⟩⟩⟩
  all_goals rfl

/-- What the two clients make of a two-byte record. -/
def twoByteVerdict (log : Announcement) : Option Verdict :=
  match log.peerRecord with
  | [peer, sequence] => some ⟨twoByteIdentity (hexText (spell [peer])), sequence.toNat, log.blockNumber.toNat,
      log.logIndex.toNat⟩
  | _ => none

theorem map_busyDecodes {log : Announcement} (hLog : log ∈ Ethereum.busyLogs) :
    (busyDecodes log).map (browserVerdict twoByteIdentity) = busyVerdict log := by
  have hVerdict : ∀ log ∈ Ethereum.busyLogs, twoByteVerdict log = busyVerdict log := by decide +kernel
  obtain ⟨record, hDecodes⟩ := busyDecodes_eq hLog
  rw [hDecodes, ← hVerdict log hLog, twoByteVerdict]
  split <;> rfl

theorem decodedIds_busy {peerId : String} (h : peerId ∈ decodedIds Ethereum.busyLogs busyDecodes) :
    peerId = "0x01" ∨ peerId = "0x02" := by
  obtain ⟨log, hLog, candidate, hDecode, rfl⟩ := h
  obtain ⟨record, hDecodes⟩ := busyDecodes_eq hLog
  have hPeer : ∀ log ∈ Ethereum.busyLogs, log.peerRecord.length = 2 →
      hexText (spell (log.peerRecord.take 1)) = "0x01" ∨ hexText (spell (log.peerRecord.take 1)) = "0x02" := by
    decide
  have hLogPeer := hPeer log hLog
  rw [hDecodes] at hDecode
  split at hDecode
  · rename_i peer sequence hRecord
    rw [hRecord] at hLogPeer
    obtain rfl := Option.some.inj hDecode
    exact hLogPeer rfl
  · cases hDecode

theorem verdictIds_busy {key : Bytes} (h : key ∈ verdictIds Ethereum.busyLogs busyVerdict) :
    key = twoByteIdentity "0x01" ∨ key = twoByteIdentity "0x02" := by
  obtain ⟨log, hLog, verdict, hVerdict, rfl⟩ := h
  have hAll : ∀ log ∈ Ethereum.busyLogs, (busyVerdict log).all fun verdict =>
      verdict.identity = twoByteIdentity "0x01" ∨ verdict.identity = twoByteIdentity "0x02" := by decide
  have hKey := hAll log hLog
  rw [hVerdict] at hKey
  simpa using hKey

theorem sharedVerdict_busy : SharedVerdict Ethereum.busyLogs
    (validated (cappedScanner 0) Ethereum.developmentDescriptor (busyWorld.block 100)) busyDecodes busyVerdict
    twoByteIdentity (seededRank busyHash (RegistryScanner.samplingSeed busyHash [1] (busyWorld.block 100).hash
      Ethereum.developmentDescriptor.namespace.bytes))
    (browserScore busyHash (busyWorld.block 100).hash Ethereum.developmentDescriptor.namespace.bytes) where
  registry _ _ := rfl
  browser _ := map_busyDecodes
  identity_inj := by
    intro j hj k hk h
    obtain rfl | rfl := decodedIds_busy hj <;> obtain rfl | rfl := decodedIds_busy hk
    · rfl
    · exact absurd h (by decide)
    · exact absurd h (by decide)
    · rfl
  rank_inj := by
    intro j hj k hk h
    obtain rfl | rfl := verdictIds_busy hj <;> obtain rfl | rfl := verdictIds_busy hk
    · rfl
    · exact absurd h (by decide)
    · exact absurd h (by decide)
    · rfl
  rank_lt := by
    intro j hj k hk
    obtain rfl | rfl := decodedIds_busy hj <;> obtain rfl | rfl := decodedIds_busy hk <;> decide

/-- Both scanners are refused the whole range once, read the four logs and retain one of the two peers. -/
theorem scanners_agree_busy : Alike (SameReport twoByteIdentity)
    (((cappedScanner 50000).scan busyHash Ethereum.developmentDescriptor [1] none).run.play busyWorld.registry [])
    ((scanRegistry busyHash twoByteRecord (fun _ _ => 0) dailyDescriptor (cappedOptions 50000)).run.play busyWorld.rpc
      []) :=
  scanners_agree busyWorld (cappedScanner 50000) Ethereum.developmentDescriptor dailyDescriptor (cappedOptions 50000) [1]
    busyHash busyHash twoByteRecord (fun _ _ => 0) busyVerdict twoByteIdentity (sameSettings_capped (by decide))
    ⟨by decide, by decide⟩ same_development valid_development sharedVerdict_busy

/-- A log cap of 2^53 is not a safe integer: the browser client refuses it, and the node scans. -/
theorem scanners_agree_largeCap :
    SameSettings (cappedScanner (2 ^ 53)).config (cappedOptions (2 ^ 53)) ∧
    Same dailyDescriptor Ethereum.developmentDescriptor ∧ Ethereum.developmentDescriptor.Valid ∧
    SharedVerdict (busyWorld.chain.logs Ethereum.developmentDescriptor.registry.address
        Ethereum.developmentDescriptor.namespace)
      (validated (cappedScanner (2 ^ 53)) Ethereum.developmentDescriptor (busyWorld.head (cappedScanner (2 ^ 53)).config))
      (busyWorld.decodes twoByteRecord dailyDescriptor (cappedOptions (2 ^ 53))
        (busyWorld.head (cappedScanner (2 ^ 53)).config)) busyVerdict twoByteIdentity
      (seededRank busyHash (RegistryScanner.samplingSeed busyHash [1]
        (busyWorld.head (cappedScanner (2 ^ 53)).config).hash Ethereum.developmentDescriptor.namespace.bytes))
      (browserScore busyHash (busyWorld.head (cappedScanner (2 ^ 53)).config).hash
        Ethereum.developmentDescriptor.namespace.bytes) ∧
    ¬ Alike (SameReport twoByteIdentity)
      (((cappedScanner (2 ^ 53)).scan busyHash Ethereum.developmentDescriptor [1] none).run.play busyWorld.registry [])
      ((scanRegistry busyHash twoByteRecord (fun _ _ => 0) dailyDescriptor (cappedOptions (2 ^ 53))).run.play
        busyWorld.rpc []) := by
  refine ⟨sameSettings_capped (by decide), same_development, valid_development, sharedVerdict_busy, fun h => ?_⟩
  have hOk := h.isOk_eq
  have hNode : (((cappedScanner (2 ^ 53)).scan busyHash Ethereum.developmentDescriptor [1] none).run.play
    busyWorld.registry []).1.isOk = true := by decide +kernel
  have hBrowser : ((scanRegistry busyHash twoByteRecord (fun _ _ => 0) dailyDescriptor
    (cappedOptions (2 ^ 53))).run.play busyWorld.rpc []).1.isOk = false := by decide
  rw [hNode, hBrowser] at hOk
  exact Bool.noConfusion hOk

end Resurrect.Browser
