import Resurrect.Core.StoreSample
import Resurrect.Ethereum.ScanAnswers

/-! # Where announcements stand in the log

Two scans of chains that hold the same announcements at different positions. Up
to the cap on raw logs the positions do not matter: validation does not read
them, and the sample is drawn by score. Past the cap, chain order decides.
-/

namespace Resurrect.Ethereum

open Resurrect.Core BoundedSample Interaction

/-- What was announced, wherever it stands in the log. -/
def unplaced (announcement : Announcement) : Announcement :=
  { announcement with
    blockNumber := 0
    logIndex := 0
    blockHash := none }

theorem accepted_unplaced_iff {codecs : CodecRegistry} {policy : AnnouncementPolicy} {announcement : Announcement}
    {codec : PeerRecordCodec} {decoded : PeerCandidate} :
    Accepted codecs (unplaced announcement) policy codec decoded ↔ Accepted codecs announcement policy codec decoded := by
  constructor
  · rintro ⟨hNamespace, hType, hLive, hNonempty, hSize, hCodec, hDecode, hSame, hEndpoints⟩
    exact ⟨hNamespace, hType, hLive, hNonempty, hSize, hCodec, hDecode, hSame, hEndpoints⟩
  · rintro ⟨hNamespace, hType, hLive, hNonempty, hSize, hCodec, hDecode, hSame, hEndpoints⟩
    exact ⟨hNamespace, hType, hLive, hNonempty, hSize, hCodec, hDecode, hSame, hEndpoints⟩

theorem mem_identities_accepted {codecs : CodecRegistry} {policy : AnnouncementPolicy} {logs : List Announcement}
    {identity : Bytes} : identity ∈ identities PeerCandidate.identityKey (accepted codecs policy logs) ↔
      ∃ log ∈ logs, ∃ codec decoded, Accepted codecs (unplaced log) policy codec decoded ∧
        decoded.identityKey = identity := by
  simp only [mem_identities, mem_accepted, validateAnnouncement_eq_ok, accepted_unplaced_iff]
  constructor
  · rintro ⟨_, ⟨log, hLog, codec, decoded, hAccepted, rfl⟩, rfl⟩
    exact ⟨log, hLog, codec, decoded, hAccepted, (identityKey_announcedBy decoded log).symm⟩
  · rintro ⟨log, hLog, codec, decoded, hAccepted, rfl⟩
    exact ⟨_, ⟨log, hLog, codec, decoded, hAccepted, rfl⟩, identityKey_announcedBy decoded log⟩

theorem identities_accepted_eq {codecs : CodecRegistry} {policy : AnnouncementPolicy} {logs other : List Announcement}
    (h : (logs.map unplaced).Perm (other.map unplaced)) :
    identities PeerCandidate.identityKey (accepted codecs policy logs) =
      identities PeerCandidate.identityKey (accepted codecs policy other) := by
  ext identity
  rw [mem_identities_accepted, mem_identities_accepted]
  have hMem : ∀ announcement, (∃ log ∈ logs, unplaced log = announcement) ↔ ∃ log ∈ other, unplaced log = announcement :=
    fun announcement => by rw [← List.mem_map, ← List.mem_map, h.mem_iff]
  constructor
  · rintro ⟨log, hLog, codec, decoded, hAccepted, hIdentity⟩
    obtain ⟨log', hLog', hSame⟩ := (hMem _).mp ⟨log, hLog, rfl⟩
    exact ⟨log', hLog', codec, decoded, hSame ▸ hAccepted, hIdentity⟩
  · rintro ⟨log, hLog, codec, decoded, hAccepted, hIdentity⟩
    obtain ⟨log', hLog', hSame⟩ := (hMem _).mpr ⟨log, hLog, rfl⟩
    exact ⟨log', hLog', codec, decoded, hSame ▸ hAccepted, hIdentity⟩

section Scans

variable {keccak256 : Bytes → B256} {self : RegistryScanner} {descriptor : NetworkDescriptor} {localNodeId : Bytes}

/-- The logs of a scan window that fit under the cap, the oldest first. -/
def processedLogs (chain : Chain) (scanner : RegistryScanner) (descriptor : NetworkDescriptor) (report : ScanReport) :
    List Announcement :=
  (chain.logsIn descriptor.registry.address descriptor.namespace report.startBlock report.head.number).take
    scanner.config.maxLogsPerScan

def placedOffers (chain : Chain) (scanner : RegistryScanner) (descriptor : NetworkDescriptor) (report : ScanReport) :
    List PeerCandidate :=
  accepted scanner.codecs (scanner.policy descriptor v1Constants report.head)
    (processedLogs chain scanner descriptor report)

theorem scan_placedOffers {chain : Chain} {previous : Option ScanCheckpoint} {trace : List (Event RegistryProvider)}
    {report : ScanReport} (h : Returns (self.scan keccak256 descriptor localNodeId previous) trace report)
    (hLogs : HonestLogs chain trace) : report.candidates =
      ((scanStore keccak256 self descriptor localNodeId report.head).insertAll keccak256
        (placedOffers chain self descriptor report)).ranked keccak256 := by
  obtain ⟨constants, before, logsTrace, scanned, rfl, hPrelude, hScan, hReport⟩ := returns_scan h
  obtain rfl := verifyConstants_eq_ok hPrelude.conforms
  have hPlain := scanLogs_plainOutcome hScan (hLogs.mono (List.subset_append_right _ _))
  have hCandidates : report.candidates = scanned.candidates := by rw [hReport]
  rw [hCandidates, hPlain.candidates, hPlain.logsProcessed, ← List.take_eq_take_min]
  rfl

/-- The placement theorem: the same announcements under the cap on raw logs give the same identities in the same
order, wherever they stand. -/
theorem scan_ignores_placement {chain chain' : Chain} {previous previous' : Option ScanCheckpoint}
    {trace trace' : List (Event RegistryProvider)} {report report' : ScanReport}
    (hRun : Returns (self.scan keccak256 descriptor localNodeId previous) trace report)
    (hRun' : Returns (self.scan keccak256 descriptor localNodeId previous') trace' report')
    (hLogs : HonestLogs chain trace) (hLogs' : HonestLogs chain' trace') (hHead : report'.head = report.head)
    (hSame : ((processedLogs chain self descriptor report).map unplaced).Perm
      ((processedLogs chain' self descriptor report').map unplaced))
    (hScores : ∀ a ∈ placedOffers chain self descriptor report, ∀ b ∈ placedOffers chain self descriptor report,
      (scanStore keccak256 self descriptor localNodeId report.head).score keccak256 a.identityKey =
        (scanStore keccak256 self descriptor localNodeId report.head).score keccak256 b.identityKey →
      a.identityKey = b.identityKey) :
    report'.candidates.map PeerCandidate.identityKey = report.candidates.map PeerCandidate.identityKey := by
  rw [scan_placedOffers hRun hLogs, scan_placedOffers hRun' hLogs', hHead]
  refine CandidateStore.identities_ranked_eq hScores ?_
  rw [placedOffers, placedOffers, hHead]
  exact identities_accepted_eq hSame

end Scans

/-- A chain of two announcements, one a block. -/
def pairChain (first second : Bytes) : Chain where
  timestamp block := block * 86400
  logs _ _ := [twoByteLog 10 0 first, twoByteLog 11 0 second]
  ordered _ _ := by simp [ChainOrder, twoByteLog]

def pairScan (first second : Bytes) : List (Event RegistryProvider) :=
  dailyAnswers none 100 10 [54, 31, 19, 13, 10, 9] [twoByteLog 10 0 first, twoByteLog 11 0 second]

def pairScanner (maxLogsPerScan : Nat) : RegistryScanner where
  codecs := CodecRegistry.new.register twoByteCodec
  config := { developmentConfig with
    maxLogsPerScan
    maxCandidates := 1 }

def pairCandidate (peer sequence : UInt8) (block : UInt64) : PeerCandidate where
  recordType := recordTypeLibp2p
  peerId := [peer]
  sequence := sequence.toUInt64
  endpoints := [⟨"/ip4/8.8.8.8/tcp/4001"⟩]
  rawSignedRecord := [peer, sequence]
  expiresAt := 100 * 86400 + 1
  source := .resurrectRegistry
  announcementBlock := some block
  announcementLogIndex := some 0

def pairReport (logsProcessed : Nat) (candidate : PeerCandidate) : ScanReport :=
  ⟨10, dailyBlock 100, ⟨100, (dailyBlock 100).hash⟩, false, logsProcessed, 0, 0, [candidate]⟩

/-- keccak256 on the sampling seed and on the identities of peers 1 and 2. -/
def pairKeccak (input : Bytes) : B256 :=
  if input.length = 65 then
    0x2702812d4241dd123d192e2fa24ab8713ffb7ac20bc933398db88534f2ffbb8f
  else if input.getLast? = some 1 then
    0x3bb45d1dbe68699f3b1867a3c606e29931376a1856c108ffb2813d88dabbb59c
  else 0x5ee85317f17fb96e4f0407ab540773f886ff4bcd4704ae52a7ea991b5232ea76

theorem honestLogs_pair (first second : Bytes) : HonestLogs (pairChain first second) (pairScan first second) :=
  honestLogs_daily rfl

/-- With room for one of two peers, peer 1 is drawn from either block. -/
theorem scan_ignores_placement_swapped :
    (pairReport 2 (pairCandidate 1 7 11)).candidates.map PeerCandidate.identityKey =
      (pairReport 2 (pairCandidate 1 7 10)).candidates.map PeerCandidate.identityKey := by
  have hRun : Returns ((pairScanner 2).scan pairKeccak developmentDescriptor [1] none) (pairScan [1, 7] [2, 5])
      (pairReport 2 (pairCandidate 1 7 10)) := Prog.runs_of_replay (by decide +kernel)
  have hRun' : Returns ((pairScanner 2).scan pairKeccak developmentDescriptor [1] none) (pairScan [2, 5] [1, 7])
      (pairReport 2 (pairCandidate 1 7 11)) := Prog.runs_of_replay (by decide +kernel)
  exact scan_ignores_placement hRun hRun' (honestLogs_pair _ _) (honestLogs_pair _ _) rfl (by decide)
    (by decide)

/-- With a cap of one log, the peer announced first is the one returned. -/
theorem rawCap_prefers_first :
    Returns ((pairScanner 1).scan pairKeccak developmentDescriptor [1] none) (pairScan [1, 7] [2, 5])
      (pairReport 1 (pairCandidate 1 7 10)) ∧ HonestLogs (pairChain [1, 7] [2, 5]) (pairScan [1, 7] [2, 5]) ∧
    Returns ((pairScanner 1).scan pairKeccak developmentDescriptor [1] none) (pairScan [2, 5] [1, 7])
      (pairReport 1 (pairCandidate 2 5 10)) ∧ HonestLogs (pairChain [2, 5] [1, 7]) (pairScan [2, 5] [1, 7]) ∧
    (((pairChain [1, 7] [2, 5]).logsIn developmentDescriptor.registry.address developmentDescriptor.namespace 10
      100).map unplaced).Perm (((pairChain [2, 5] [1, 7]).logsIn developmentDescriptor.registry.address
      developmentDescriptor.namespace 10 100).map unplaced) ∧
    (accepted (pairScanner 1).codecs ((pairScanner 1).policy developmentDescriptor v1Constants (dailyBlock 100))
      ((pairChain [1, 7] [2, 5]).logsIn developmentDescriptor.registry.address developmentDescriptor.namespace 10
        100)) = [pairCandidate 1 7 10, pairCandidate 2 5 11] ∧
    (pairReport 1 (pairCandidate 2 5 10)).candidates.map PeerCandidate.identityKey ≠
      (pairReport 1 (pairCandidate 1 7 10)).candidates.map PeerCandidate.identityKey :=
  ⟨Prog.runs_of_replay (by decide +kernel), honestLogs_pair _ _, Prog.runs_of_replay (by decide +kernel),
    honestLogs_pair _ _, by decide, by decide +kernel, by decide⟩

end Resurrect.Ethereum
