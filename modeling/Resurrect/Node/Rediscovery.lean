import Resurrect.Core.StoreSample
import Resurrect.Ethereum.ScanAnswers
import Resurrect.Node.Announcer

/-! # From announcement to discovery

What a seed announces, every scan that still has the announcement in its window
finds: the limits of the signer, of the beacon, of the envelope checks, of the
codec and of the store agree, so nothing in between drops the record.
-/

namespace Resurrect.Node

open Resurrect.Core Interaction Ethereum Libp2p

/-- An `announce` that returned has submitted a record, and `log` is the event the beacon emitted for it. -/
def Published {library : Library} (announcer : RegistryAnnouncer library) (ttl : Duration) (state : AnnouncerState)
    (chain : Chain) (log : Announcement) : Prop :=
  ∃ trace next address ns recordType supplied peerRecord transaction,
    (announcer.announce ttl state).Runs trace (.ok (), next) ∧
    (⟨.provider (.announce address ns recordType supplied peerRecord), .ok transaction⟩ : Event AnnouncerIO) ∈
      trace ∧
    ResurrectBeaconV1.announce (chain.blockTimestamp log.blockNumber) ns recordType supplied peerRecord =
      .ok ⟨log.namespace, log.recordType, log.validUntil, log.peerRecord⟩ ∧
    log ∈ chain.logs address ns

def windowLogs (chain : Chain) (descriptor : NetworkDescriptor) (report : ScanReport) : List Announcement :=
  chain.logsIn descriptor.registry.address descriptor.namespace report.startBlock report.head.number

def windowCandidates (chain : Chain) (scanner : RegistryScanner) (descriptor : NetworkDescriptor)
    (report : ScanReport) : List PeerCandidate :=
  accepted scanner.codecs (scanner.policy descriptor v1Constants report.head) (windowLogs chain descriptor report)

/-- A scan of a chain by an honest provider, within the caps of the scanner. -/
structure Observes (chain : Chain) (scanner : RegistryScanner) (descriptor : NetworkDescriptor)
    (trace : List (Event RegistryProvider)) (report : ScanReport) : Prop where
  blocks : HonestBlocks chain trace
  logs : HonestLogs chain trace
  nondecreasing : chain.Nondecreasing descriptor.registry.deploymentBlock report.head.number
  maxLogs : (windowLogs chain descriptor report).length ≤ scanner.config.maxLogsPerScan
  maxCandidates : ((windowCandidates chain scanner descriptor report).map PeerCandidate.identityKey).dedup.length ≤
    scanner.config.maxCandidates

section Scan

variable {chain : Chain} {keccak256 : Bytes → B256} {scanner : RegistryScanner} {descriptor : NetworkDescriptor}
  {localNodeId : Bytes} {previous : Option ScanCheckpoint} {trace : List (Event RegistryProvider)}
  {report : ScanReport}

theorem Observes.candidates_eq (h : Observes chain scanner descriptor trace report)
    (hScan : Returns (scanner.scan keccak256 descriptor localNodeId previous) trace report) :
    report.candidates = ((scanStore keccak256 scanner descriptor localNodeId report.head).insertAll keccak256
      (windowCandidates chain scanner descriptor report)).ranked keccak256 := by
  obtain ⟨constants, before, logsTrace, scanned, rfl, hPrelude, hLogs, hReport⟩ := returns_scan hScan
  obtain rfl := verifyConstants_eq_ok hPrelude.conforms
  have hPlain := scanLogs_plainOutcome hLogs (h.logs.mono (List.subset_append_right _ _))
  have hMax := h.maxLogs
  have hTake : (windowLogs chain descriptor report).take scanned.logsProcessed =
      windowLogs chain descriptor report := by
    apply List.take_of_length_le
    rw [hPlain.logsProcessed]
    exact le_min hMax le_rfl
  have hCandidates := hPlain.candidates
  rw [← windowLogs, hTake] at hCandidates
  rw [hReport]
  exact hCandidates

theorem Observes.mem_windowLogs (h : Observes chain scanner descriptor trace report)
    (hScan : Returns (scanner.scan keccak256 descriptor localNodeId previous) trace report) {log : Announcement}
    {recordType supplied : UInt32} {peerRecord : Bytes} {event : ResurrectBeaconV1.PeerAnnounced}
    (hEmitted : ResurrectBeaconV1.announce (chain.blockTimestamp log.blockNumber) descriptor.namespace recordType
      supplied peerRecord = .ok event)
    (hLog : log ∈ chain.logs descriptor.registry.address descriptor.namespace)
    (hFirst : descriptor.registry.deploymentBlock ≤ log.blockNumber)
    (hLast : log.blockNumber ≤ report.head.number) (hLive : report.head.timestamp < event.validUntil) :
    log ∈ windowLogs chain descriptor report := by
  obtain ⟨constants, before, logsTrace, scanned, rfl, hPrelude, -, -⟩ := returns_scan hScan
  have hWindow := hPrelude.windowStart (h.blocks.mono (List.subset_append_left _ _)) h.nondecreasing
  exact Chain.mem_logsIn.mpr ⟨hLog, hWindow.covers _ _ _ _ _ _ hFirst hLast hEmitted hLive, hLast⟩

/-- A candidate of the window, and no other of its identity, is reported under its freshest record. -/
theorem Observes.exists_reported (h : Observes chain scanner descriptor trace report)
    (hScan : Returns (scanner.scan keccak256 descriptor localNodeId previous) trace report)
    {offer : PeerCandidate} (hOffer : offer ∈ windowCandidates chain scanner descriptor report) :
    ∃ candidate ∈ windowCandidates chain scanner descriptor report,
      (report.candidates.filter fun other => other.identityKey = offer.identityKey) = [candidate] ∧
      candidate.identityKey = offer.identityKey ∧ offer.sequence ≤ candidate.sequence := by
  have hCandidates := h.candidates_eq hScan
  have hFew := h.maxCandidates.trans (le_max_right 1 scanner.config.maxCandidates)
  obtain ⟨candidate, hRanked, hIdent⟩ := @CandidateStore.exists_ranked_of_few keccak256
    ⟨scanner.config.maxCandidates, RegistryScanner.samplingSeed keccak256 localNodeId report.head.hash
      descriptor.namespace.bytes⟩ _ hFew _ hOffer
  obtain ⟨hMem, hGreatest⟩ := CandidateStore.greatest_of_mem_ranked hRanked
  refine ⟨candidate, hMem, ?_, hIdent, ?_⟩
  · rw [hCandidates, ← hIdent]
    exact CandidateStore.filter_ranked_eq hRanked
  · exact UInt64.le_iff_toNat_le.mpr (hGreatest offer hOffer hIdent.symm)

end Scan

section Announced

variable {library : Library} {announcer : RegistryAnnouncer library} {scanner : RegistryScanner}
  {log : Announcement} {head : BlockInfo} {codec : Libp2pPeerRecordCodec}

theorem decodeAndVerify_announced (hLawful : library.Lawful) {sequence : UInt64} {bytes : Bytes}
    (hSigned : signPeerRecord library announcer.keypair sequence announcer.addresses = .ok bytes)
    {dialContext : DialContext} (hEndpoints : announcer.addresses.length ≤ codec.maxEndpoints)
    (hUsable : ∃ address ∈ announcer.addresses,
      codec.policy.accepts (library.protocols address) (some announcer.peerId) dialContext = true) :
    ∃ decoded, codec.decodeAndVerify library bytes dialContext = .ok decoded ∧
      decoded.recordType = recordTypeLibp2p ∧ decoded.peerId = library.toBytes announcer.peerId ∧
      decoded.sequence = sequence ∧ decoded.endpoints.length ≤ announcer.addresses.length := by
  obtain ⟨address, hMem, hAccepts⟩ := hUsable
  have hNone : ¬ ∀ address ∈ announcer.addresses,
      codec.policy.accepts (library.protocols address) (some announcer.peerId) dialContext = false := by
    intro hRejects
    rw [hRejects address hMem] at hAccepts
    cases hAccepts
  have hDecoded : codec.decodeAndVerify library bytes dialContext =
      codec.judge library announcer.peerId sequence announcer.addresses dialContext bytes :=
    codec.decodeAndVerify_signed hLawful hSigned dialContext
  rw [Libp2pPeerRecordCodec.judge, if_neg (not_lt.mpr hEndpoints), if_neg hNone] at hDecoded
  exact ⟨_, hDecoded, rfl, rfl, rfl, codec.length_acceptedEndpoints_le _ _ _⟩

theorem validateAnnouncement_signed (hLawful : library.Lawful) {sequence : UInt64}
    (hSigned : signPeerRecord library announcer.keypair sequence announcer.addresses = .ok log.peerRecord)
    (hNamespace : log.namespace = announcer.descriptor.namespace) (hType : log.recordType = recordTypeLibp2p)
    (hAccepted : recordTypeLibp2p ∈ announcer.descriptor.acceptedRecordTypes)
    (hLive : head.timestamp < log.validUntil)
    (hCodec : scanner.codecs.get recordTypeLibp2p = some (codec.codec library))
    (hEndpoints : announcer.addresses.length ≤ min codec.maxEndpoints scanner.config.maxEndpointsPerRecord)
    (hUsable : ∃ address ∈ announcer.addresses, codec.policy.accepts (library.protocols address)
      (some announcer.peerId) scanner.config.dialContext = true) :
    ∃ candidate, scanner.codecs.validateAnnouncement log (scanner.policy announcer.descriptor v1Constants head) =
        .ok candidate ∧
      candidate.recordType = recordTypeLibp2p ∧ candidate.peerId = library.toBytes announcer.peerId ∧
      candidate.sequence = sequence := by
  obtain ⟨hCodecMax, hScanMax⟩ := le_min_iff.mp hEndpoints
  obtain ⟨decoded, hDecoded, hDecodedType, hPeer, hSequence, hLength⟩ :=
    decodeAndVerify_announced hLawful hSigned hCodecMax hUsable
  obtain ⟨-, -, signature, -, hSealed, hSize⟩ := signPeerRecord_eq_ok.mp hSigned
  refine ⟨decoded.announcedBy log, validateAnnouncement_eq_ok.mpr ⟨codec.codec library, decoded, ?_, rfl⟩,
    hDecodedType, hPeer, hSequence⟩
  constructor
  · exact hNamespace
  · rw [hType]
    exact hAccepted
  · exact hLive
  · rw [hSealed]
    exact Envelope.encodeToVec_ne_nil _ (List.cons_ne_nil _ _)
  · exact hSize
  · rw [hType]
    exact hCodec
  · exact hDecoded
  · rw [hType]
    exact hDecodedType
  · exact hLength.trans hScanMax

theorem Published.signed {ttl : Duration} {state : AnnouncerState} {chain : Chain}
    (h : Published announcer ttl state chain log) :
    recordTypeLibp2p ∈ announcer.descriptor.acceptedRecordTypes ∧
    signPeerRecord library announcer.keypair state.sequence announcer.addresses = .ok log.peerRecord ∧
    log.namespace = announcer.descriptor.namespace ∧ log.recordType = recordTypeLibp2p ∧
    log ∈ chain.logs announcer.descriptor.registry.address announcer.descriptor.namespace ∧
    ∃ supplied, ResurrectBeaconV1.announce (chain.blockTimestamp log.blockNumber) announcer.descriptor.namespace
      recordTypeLibp2p supplied log.peerRecord =
        .ok ⟨log.namespace, log.recordType, log.validUntil, log.peerRecord⟩ := by
  obtain ⟨trace, next, address, ns, recordType, supplied, peerRecord, transaction, hRuns, hCall, hEmitted, hLog⟩ := h
  obtain ⟨before, after, rfl⟩ := List.append_of_mem hCall
  obtain ⟨hAccepted, rfl, rfl, rfl, hSigned⟩ := RegistryAnnouncer.submits_of_announce hRuns.reaches
  have hEvent := (ResurrectBeaconV1.announce_eq_ok.mp hEmitted).2
  simp only [ResurrectBeaconV1.PeerAnnounced.mk.injEq] at hEvent
  obtain ⟨hNamespace, hType, -, rfl⟩ := hEvent
  exact ⟨hAccepted, hSigned, hNamespace, hType, hLog, supplied, hEmitted⟩

end Announced

/-- Announce to discover: a scan whose window reaches an announcement that is still live reports the announcer
once, under its published record or a fresher one. -/
theorem announced_discovered {library : Library} (hLawful : library.Lawful) {announcer : RegistryAnnouncer library}
    {ttl : Duration} {state : AnnouncerState} {chain : Chain} {log : Announcement}
    (hPublished : Published announcer ttl state chain log)
    {keccak256 : Bytes → B256} {scanner : RegistryScanner} {codec : Libp2pPeerRecordCodec}
    (hCodec : scanner.codecs.get recordTypeLibp2p = some (codec.codec library))
    (hEndpoints : announcer.addresses.length ≤ min codec.maxEndpoints scanner.config.maxEndpointsPerRecord)
    (hUsable : ∃ address ∈ announcer.addresses, codec.policy.accepts (library.protocols address)
      (some announcer.peerId) scanner.config.dialContext = true)
    {localNodeId : Bytes} {previous : Option ScanCheckpoint} {trace : List (Event RegistryProvider)}
    {report : ScanReport}
    (hScan : Returns (scanner.scan keccak256 announcer.descriptor localNodeId previous) trace report)
    (hObserves : Observes chain scanner announcer.descriptor trace report)
    (hFirst : announcer.descriptor.registry.deploymentBlock ≤ log.blockNumber)
    (hLast : log.blockNumber ≤ report.head.number) (hLive : report.head.timestamp < log.validUntil) :
    ∃ candidate, (report.candidates.filter fun other =>
        other.recordType = recordTypeLibp2p ∧ other.peerId = library.toBytes announcer.peerId) = [candidate] ∧
      state.sequence ≤ candidate.sequence ∧
      ((∀ other ∈ windowLogs chain announcer.descriptor report, other ≠ log → ∀ rival,
          scanner.codecs.validateAnnouncement other
            (scanner.policy announcer.descriptor v1Constants report.head) = .ok rival →
          rival.recordType = recordTypeLibp2p → rival.peerId = library.toBytes announcer.peerId →
          rival.sequence < state.sequence) →
        candidate.sequence = state.sequence) := by
  obtain ⟨hAccepted, hSigned, hNamespace, hType, hLog, supplied, hEmitted⟩ := hPublished.signed
  obtain ⟨offer, hOffer, hOfferType, hOfferPeer, hOfferSequence⟩ := validateAnnouncement_signed hLawful hSigned
    hNamespace hType hAccepted hLive hCodec hEndpoints hUsable
  have hWindow := hObserves.mem_windowLogs hScan hEmitted hLog hFirst hLast hLive
  obtain ⟨candidate, hCandidate, hOnly, hIdent, hFresh⟩ :=
    hObserves.exists_reported hScan (mem_accepted.mpr ⟨log, hWindow, hOffer⟩)
  have hFilter : ∀ other : PeerCandidate, other.identityKey = offer.identityKey ↔
      other.recordType = recordTypeLibp2p ∧ other.peerId = library.toBytes announcer.peerId := by
    intro other
    rw [identityKey_inj, hOfferType, hOfferPeer]
  simp only [hFilter] at hOnly
  rw [hOfferSequence] at hFresh
  refine ⟨candidate, hOnly, hFresh, fun hRivals => ?_⟩
  obtain ⟨other, hOther, hValid⟩ := mem_accepted.mp hCandidate
  by_cases hSame : other = log
  · subst hSame
    rw [← Except.ok.inj (hOffer.symm.trans hValid), hOfferSequence]
  · obtain ⟨hRivalType, hRivalPeer⟩ := (hFilter candidate).mp hIdent
    have hStale := hRivals other hOther hSame candidate hValid hRivalType hRivalPeer
    exact absurd hFresh (UInt64.not_le.mpr hStale)

def vectorAnnouncer : RegistryAnnouncer vectorLibrary where
  descriptor := developmentDescriptor
  keypair := ()
  addresses := [.browser]
  eligible := true
  renewalInterval := ⟨43200, 0⟩

def vectorLog : Announcement where
  «namespace» := developmentDescriptor.namespace
  recordType := recordTypeLibp2p
  validUntil := (95 + 30) * 86400
  peerRecord := browserRecord
  blockNumber := 95
  logIndex := 0
  blockHash := none

def vectorChain : Chain where
  timestamp block := block * 86400
  logs _ _ := [vectorLog]
  ordered _ _ := List.pairwise_singleton _ _

/-- An announcement for thirty days, renewed after a little over a quarter of an hour. -/
def vectorAnnouncement : List (Event AnnouncerIO) :=
  [⟨.provider .chainId, .ok 31337⟩,
    ⟨.provider (.registryConstants developmentDescriptor.registry.address), .ok ⟨1, 7776000, 4096⟩⟩,
    ⟨.provider (.announce developmentDescriptor.registry.address developmentDescriptor.namespace recordTypeLibp2p
      2592000 browserRecord), .ok 1⟩,
    ⟨.systemTime, some ⟨95 * 86400, 0⟩⟩,
    ⟨.randomRange 86398, ⟨1000, by decide⟩⟩]

def browserScanner : RegistryScanner where
  codecs := CodecRegistry.new.register (Libp2pPeerRecordCodec.default.codec vectorLibrary)
  config := { developmentConfig with dialContext := .browser }

/-- keccak256 on the sampling seed and on the identity of the vectors under it. -/
def vectorKeccak (input : Bytes) : B256 :=
  if input.length = 65 then 0x2702812d4241dd123d192e2fa24ab8713ffb7ac20bc933398db88534f2ffbb8f
  else 0xcf8e50c89553bf4d6359c76c8e27c7be56de520c894c10e6f7e2d95241f7bcdd

def vectorCandidate : PeerCandidate where
  recordType := recordTypeLibp2p
  peerId := vectorPeerId
  sequence := 42
  endpoints := [⟨"/dns4/seed.example/tcp/443/wss"⟩]
  rawSignedRecord := browserRecord
  expiresAt := 125 * 86400
  source := .resurrectRegistry
  announcementBlock := some 95
  announcementLogIndex := some 0

def vectorReport : ScanReport where
  startBlock := 10
  head := dailyBlock 100
  checkpoint := ⟨100, (dailyBlock 100).hash⟩
  reorgDetected := false
  logsProcessed := 1
  recordsRejected := 0
  chunkReductions := 0
  candidates := [vectorCandidate]

theorem published_vector : Published vectorAnnouncer ⟨2592000, 0⟩ ⟨42, 0, 0⟩ vectorChain vectorLog := by
  refine ⟨vectorAnnouncement, ⟨43, 95 * 86400 + 1001, 1⟩, _, _, _, 2592000, browserRecord, 1, ?_,
    .tail _ (.tail _ (.head _)), ?_, .head _⟩
  · exact Prog.runs_of_replay (by decide +kernel)
  · decide +kernel

theorem announced_discovered_vector : ∃ candidate, (vectorReport.candidates.filter fun other =>
    other.recordType = recordTypeLibp2p ∧ other.peerId = vectorPeerId) = [candidate] ∧ candidate.sequence = 42 := by
  have hScan : Returns (browserScanner.scan vectorKeccak developmentDescriptor [1] none)
      (dailyAnswers none 100 10 [54, 31, 19, 13, 10, 9] [vectorLog]) vectorReport :=
    Prog.runs_of_replay (by decide +kernel)
  have hObserves : Observes vectorChain browserScanner developmentDescriptor
      (dailyAnswers none 100 10 [54, 31, 19, 13, 10, 9] [vectorLog]) vectorReport := by
    constructor
    · exact honestBlocks_daily rfl
    · exact honestLogs_daily (by decide +kernel)
    · exact nondecreasing_daily rfl 8
    · decide
    · decide +kernel
  have hWindow : windowLogs vectorChain vectorAnnouncer.descriptor vectorReport = [vectorLog] := by decide +kernel
  have hCodec : browserScanner.codecs.get recordTypeLibp2p =
      some (Libp2pPeerRecordCodec.default.codec vectorLibrary) := CodecRegistry.get_register _ _
  obtain ⟨candidate, hOnly, -, hSequence⟩ := announced_discovered vectorLibrary_lawful published_vector hCodec
    (by decide) ⟨.browser, List.mem_singleton_self _, by decide⟩ hScan hObserves (by decide) (by decide)
    (by decide)
  refine ⟨candidate, hOnly, hSequence fun other hOther hDiffers => ?_⟩
  rw [hWindow] at hOther
  exact absurd (List.mem_singleton.mp hOther) hDiffers

end Resurrect.Node
