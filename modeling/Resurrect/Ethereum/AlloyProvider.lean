import Resurrect.Ethereum.ScanLogs
import Resurrect.Ethereum.ScanAnswers
import Resurrect.Ethereum.ScanBounds
import Resurrect.Foundation.Abi
import Resurrect.Foundation.Handler

/-! # The registry provider over a JSON-RPC node

`AlloyRegistryProvider`: each query of the provider interface as requests to a
node, with the errors sorted and the logs converted. Over a node that tells the
truth it is an honest provider, so a scan through it reads the chain; and it sends
a transaction for an announcement only, if it has a signer.
-/

namespace Resurrect.Ethereum

open Resurrect.Core Interaction

inductive BlockNumberOrTag where
  | number (number : UInt64)
  | latest
  | safe
  | finalized
  deriving DecidableEq, Repr

structure Filter where
  address : Address
  eventSignature : B256
  topic1 : B256
  fromBlock : UInt64
  toBlock : UInt64
  deriving DecidableEq, Repr

structure RpcLog where
  topics : List B256
  data : Bytes
  blockNumber : Option UInt64
  logIndex : Option UInt64
  blockHash : Option B256
  removed : Bool
  deriving DecidableEq, Repr

inductive NodeQuery where
  | ethChainId
  | version (address : Address)
  | maxTtl (address : Address)
  | maxRecordBytes (address : Address)
  | getBlockByNumber (tag : BlockNumberOrTag)
  | getLogs (filter : Filter)
  | send (address : Address) («namespace» : B256) (recordType ttl : UInt32) (peerRecord : Bytes)
  | getReceipt (transaction : B256)
  deriving DecidableEq

/-- A node behind the `alloy` client; its errors are their texts, and a receipt is the hash of its transaction. -/
abbrev EthereumNode : Interface where
  Query := NodeQuery
  Answer
    | .ethChainId => Except String U256
    | .version _ => Except String UInt32
    | .maxTtl _ => Except String UInt32
    | .maxRecordBytes _ => Except String UInt32
    | .getBlockByNumber _ => Except String (Option BlockInfo)
    | .getLogs _ => Except String (List RpcLog)
    | .send .. => Except String B256
    | .getReceipt _ => Except String B256

instance : DecidableEq EthereumNode.Query := inferInstanceAs (DecidableEq NodeQuery)

namespace EthereumNode

def ethChainId : Prog EthereumNode (Except String U256) := Prog.ask (I := EthereumNode) .ethChainId

def version (address : Address) : Prog EthereumNode (Except String UInt32) :=
  Prog.ask (I := EthereumNode) (.version address)

def maxTtl (address : Address) : Prog EthereumNode (Except String UInt32) :=
  Prog.ask (I := EthereumNode) (.maxTtl address)

def maxRecordBytes (address : Address) : Prog EthereumNode (Except String UInt32) :=
  Prog.ask (I := EthereumNode) (.maxRecordBytes address)

def getBlockByNumber (tag : BlockNumberOrTag) : Prog EthereumNode (Except String (Option BlockInfo)) :=
  Prog.ask (I := EthereumNode) (.getBlockByNumber tag)

def getLogs (filter : Filter) : Prog EthereumNode (Except String (List RpcLog)) :=
  Prog.ask (I := EthereumNode) (.getLogs filter)

def send (address : Address) (ns : B256) (recordType ttl : UInt32) (peerRecord : Bytes) :
    Prog EthereumNode (Except String B256) :=
  Prog.ask (I := EthereumNode) (.send address ns recordType ttl peerRecord)

def getReceipt (transaction : B256) : Prog EthereumNode (Except String B256) :=
  Prog.ask (I := EthereumNode) (.getReceipt transaction)

end EthereumNode

/-- The hash of `PeerAnnounced(bytes32,uint32,uint64,bytes)`. -/
def signatureHash : B256 := 0x7d1c1d3bcf95382eea4fdac25defde4e7ea513c29a4f5cb05e6c1adcc6b3b2bf

section Errors

def containsAny (needles : List String) (message : String) : Bool :=
  needles.any fun needle => needle.toList <:+: (message.map Char.toLower).toList

def looksUnsupported (message : String) : Bool :=
  containsAny ["unsupported", "not found", "invalid argument"] message

def mapBlockError (reference : BlockReference) (message : String) : ProviderError :=
  match reference with
  | .number _ => .request message
  | .latest => .request message
  | .safe => if looksUnsupported message then .unsupported message else .request message
  | .finalized => if looksUnsupported message then .unsupported message else .request message

def mapLogError (message : String) : ProviderError :=
  if containsAny ["range", "too many", "response size", "limit exceeded", "query returned more than"] message then
    .rangeLimit message
  else .request message

end Errors

def BlockReference.tag : BlockReference → BlockNumberOrTag
  | .number height => .number height
  | .latest => .latest
  | .safe => .safe
  | .finalized => .finalized

/-- `log_decode_validate` reads the topics and the data of a log. -/
abbrev LogDecoder := List B256 → Bytes → Except String ResurrectBeaconV1.PeerAnnounced

section Adapter

variable (decodeLog : LogDecoder)

def convertLog (log : RpcLog) : Except ProviderError Announcement := do
  let blockNumber ← log.blockNumber.elim (.error (.missing "log block")) .ok
  let logIndex ← log.logIndex.elim (.error (.missing "log index")) .ok
  let event ← (decodeLog log.topics log.data).mapError .request
  pure {
    «namespace» := event.namespace
    recordType := event.recordType
    validUntil := event.validUntil
    peerRecord := event.peerRecord
    blockNumber := blockNumber
    logIndex := logIndex
    blockHash := log.blockHash }

def registryConstants (address : Address) : ExceptT ProviderError (Prog EthereumNode) RegistryConstants := do
  let version ← attempt .request (EthereumNode.version address)
  let maxTtl ← attempt .request (EthereumNode.maxTtl address)
  let maxRecordBytes ← attempt .request (EthereumNode.maxRecordBytes address)
  pure ⟨version, maxTtl, maxRecordBytes⟩

def announcementFilter (address : Address) (ns : Namespace) (fromBlock toBlock : UInt64) : Filter where
  address := address
  eventSignature := signatureHash
  topic1 := ns.bytes
  fromBlock := fromBlock
  toBlock := toBlock

def announcements (address : Address) (ns : Namespace) (fromBlock toBlock : UInt64) :
    ExceptT ProviderError (Prog EthereumNode) (List Announcement) := do
  let logs ← attempt mapLogError (EthereumNode.getLogs (announcementFilter address ns fromBlock toBlock))
  ExceptT.mk (pure ((logs.filter fun log => !log.removed).mapM (convertLog decodeLog)))

structure AlloyRegistryProvider where
  writable : Bool

def AlloyRegistryProvider.announce (self : AlloyRegistryProvider) (address : Address) (ns : Namespace)
    (recordType ttl : UInt32) (peerRecord : Bytes) : ExceptT ProviderError (Prog EthereumNode) B256 := do
  if self.writable then
    let pending ← attempt .request (EthereumNode.send address ns.bytes recordType ttl peerRecord)
    attempt .request (EthereumNode.getReceipt pending)
  else throw .readOnly

def AlloyRegistryProvider.handler (self : AlloyRegistryProvider) : Handler RegistryProvider EthereumNode
  | .chainId => (attempt ProviderError.request EthereumNode.ethChainId).run
  | .registryConstants address => (registryConstants address).run
  | .block reference => (attempt (mapBlockError reference) (EthereumNode.getBlockByNumber reference.tag)).run
  | .announcements address ns fromBlock toBlock => (announcements decodeLog address ns fromBlock toBlock).run
  | .announce address ns recordType ttl peerRecord => (self.announce address ns recordType ttl peerRecord).run

end Adapter

section Honest

theorem toNat_lt_word (value : UInt32) : value.toNat < 2 ^ 256 := value.toNat_lt.trans (by decide)

def recordTypeTopic (recordType : UInt32) : B256 := ⟨recordType.toNat, toNat_lt_word recordType⟩

/-- The log of an event of the beacon, as a node reports it. -/
structure Encodes (announcement : Announcement) (log : RpcLog) : Prop where
  topics_eq : log.topics = [signatureHash, announcement.namespace.bytes, recordTypeTopic announcement.recordType]
  data_eq : Abi.encodeUintBytes announcement.validUntil.toNat announcement.peerRecord = some log.data
  blockNumber_eq : log.blockNumber = some announcement.blockNumber
  logIndex_eq : log.logIndex = some announcement.logIndex
  blockHash_eq : log.blockHash = announcement.blockHash

/-- Well-formed logs of the event are decoded. -/
structure LogDecoder.Lawful (decodeLog : LogDecoder) : Prop where
  decodes : ∀ (event : ResurrectBeaconV1.PeerAnnounced) (data : Bytes),
    Abi.encodeUintBytes event.validUntil.toNat event.peerRecord = some data →
    decodeLog [signatureHash, event.namespace.bytes, recordTypeTopic event.recordType] data = .ok event

/-- Answered headers are the chain's, and the logs of the event that are not marked as removed are the chain's
in order. -/
structure HonestNode (chain : Chain) (trace : List (Event EthereumNode)) : Prop where
  blocks : ∀ tag info, (⟨.getBlockByNumber tag, .ok (some info)⟩ : Event EthereumNode) ∈ trace →
    info.timestamp = chain.timestamp info.number ∧ ∀ number, tag = .number number → info.number = number
  logs : ∀ filter logs, (⟨.getLogs filter, .ok logs⟩ : Event EthereumNode) ∈ trace →
    filter.eventSignature = signatureHash →
    List.Forall₂ Encodes (chain.logsIn filter.address ⟨filter.topic1⟩ filter.fromBlock filter.toBlock)
      (logs.filter fun log => !log.removed)

theorem HonestNode.mono {chain : Chain} {trace part : List (Event EthereumNode)} (h : HonestNode chain trace)
    (hPart : part ⊆ trace) : HonestNode chain part where
  blocks tag info hMem := h.blocks tag info (hPart hMem)
  logs filter logs hMem := h.logs filter logs (hPart hMem)

variable {decodeLog : LogDecoder} {chain : Chain} {provider : AlloyRegistryProvider}

theorem convertLog_of_encodes (hLawful : decodeLog.Lawful) {announcement : Announcement} {log : RpcLog}
    (h : Encodes announcement log) : convertLog decodeLog log = .ok announcement := by
  have hDecoded := hLawful.decodes ⟨announcement.namespace, announcement.recordType, announcement.validUntil,
    announcement.peerRecord⟩ log.data h.data_eq
  rw [convertLog, h.blockNumber_eq, h.logIndex_eq, h.topics_eq, hDecoded, h.blockHash_eq]
  rfl

theorem mapM_convertLog (hLawful : decodeLog.Lawful) {announcements : List Announcement} {logs : List RpcLog}
    (h : List.Forall₂ Encodes announcements logs) : logs.mapM (convertLog decodeLog) = .ok announcements := by
  induction h with
  | nil => rfl
  | cons hHead hRest ih =>
    rw [List.mapM_cons, convertLog_of_encodes hLawful hHead, ih]
    rfl

theorem announcements_of_honest (hLawful : decodeLog.Lawful) {address : Address} {ns : Namespace}
    {fromBlock toBlock : UInt64} {part : List (Event EthereumNode)} {logs : List Announcement}
    (h : Returns (announcements decodeLog address ns fromBlock toBlock) part logs) (hHonest : HonestNode chain part) :
    logs = chain.logsIn address ns fromBlock toBlock := by
  rw [announcements] at h
  obtain ⟨first, raw, second, rfl, hAsk, hRest⟩ := returns_bind.mp h
  rw [returns_attempt, EthereumNode.getLogs, Prog.runs_ask] at hAsk
  have hEncoded := hHonest.logs _ raw (by rw [hAsk]; exact List.mem_cons_self ..) rfl
  obtain ⟨-, hLogs⟩ := hRest
  rw [mapM_convertLog hLawful hEncoded] at hLogs
  exact Except.ok.inj hLogs

theorem block_of_honest {reference : BlockReference} {part : List (Event EthereumNode)} {info : BlockInfo}
    (h : Returns (attempt (mapBlockError reference) (EthereumNode.getBlockByNumber reference.tag)) part (some info))
    (hHonest : HonestNode chain part) :
    info.timestamp = chain.timestamp info.number ∧ ∀ number, reference = .number number → info.number = number := by
  rw [returns_attempt, EthereumNode.getBlockByNumber, Prog.runs_ask] at h
  obtain ⟨hTimestamp, hNumber⟩ := hHonest.blocks reference.tag info (by rw [h]; exact List.mem_cons_self ..)
  refine ⟨hTimestamp, fun number hReference => hNumber number ?_⟩
  rw [hReference]
  rfl

/-- Over an honest node the adapter is an honest provider. -/
theorem honest_of_answers (hLawful : decodeLog.Lawful) {outer : List (Event RegistryProvider)}
    {inner : List (Event EthereumNode)} (h : (provider.handler decodeLog).Answers outer inner)
    (hHonest : HonestNode chain inner) : HonestBlocks chain outer ∧ HonestLogs chain outer := by
  constructor
  · intro reference info hMem
    obtain ⟨part, hSubset, hRuns⟩ := h.exists_part hMem
    exact block_of_honest hRuns (hHonest.mono hSubset)
  · intro address ns fromBlock toBlock logs hMem
    obtain ⟨part, hSubset, hRuns⟩ := h.exists_part hMem
    exact announcements_of_honest hLawful hRuns (hHonest.mono hSubset)

end Honest

section Validating

/-- Logs of the event and the data that encodes one, and no others. -/
def validatingDecoder : LogDecoder := fun topics data =>
  match topics, Abi.readUintBytes data with
  | [signature, ns, recordType], some (validUntil, peerRecord) =>
    if signature = signatureHash ∧ recordType.val < 2 ^ 32 ∧ validUntil < 2 ^ 64 then
      .ok ⟨⟨ns⟩, UInt32.ofNat recordType.val, UInt64.ofNat validUntil, peerRecord⟩
    else .error "type check failed"
  | _, _ => .error "type check failed"

theorem validatingDecoder_lawful : validatingDecoder.Lawful where
  decodes event data hData := by
    have hWord : event.validUntil.toNat < Abi.wordLimit := event.validUntil.toNat_lt.trans (by decide)
    have hType : (recordTypeTopic event.recordType).val = event.recordType.toNat := rfl
    have hRead := (Abi.readUintBytes_eq_some hWord).mpr hData
    simp only [validatingDecoder, hRead, hType, event.recordType.toNat_lt, event.validUntil.toNat_lt, and_self, if_true,
      UInt32.ofNat_toNat, UInt64.ofNat_toNat]

/-- The log a node reports for an event. -/
def rpcLog (announcement : Announcement) : RpcLog where
  topics := [signatureHash, announcement.namespace.bytes, recordTypeTopic announcement.recordType]
  data := (Abi.encodeUintBytes announcement.validUntil.toNat announcement.peerRecord).getD []
  blockNumber := some announcement.blockNumber
  logIndex := some announcement.logIndex
  blockHash := announcement.blockHash
  removed := false

theorem encodes_rpcLog {announcement : Announcement} (h : announcement.peerRecord.length < Abi.wordLimit) :
    Encodes announcement (rpcLog announcement) where
  topics_eq := rfl
  data_eq := by rw [rpcLog, Abi.encodeUintBytes, if_pos h]; rfl
  blockNumber_eq := rfl
  logIndex_eq := rfl
  blockHash_eq := rfl

def nodeScanner : RegistryScanner := { busyScanner with config := { busyScanner.config with initialChunkSize := 100 } }

def nodeLogs : List RpcLog := { rpcLog (twoByteLog 9 0 [1, 9]) with removed := true } :: busyLogs.map rpcLog

/-- A node's answers to a scan of the busy chain up to block 100, a removed log among them. -/
def nodeScan : List (Event EthereumNode) :=
  let address := developmentDescriptor.registry.address
  [⟨.ethChainId, .ok 31337⟩, ⟨.version address, .ok 1⟩, ⟨.maxTtl address, .ok 7776000⟩,
    ⟨.maxRecordBytes address, .ok 4096⟩, ⟨.getBlockByNumber .latest, .ok (some (dailyBlock 102))⟩] ++
  [100, 54, 31, 19, 13, 10, 9].map (fun number =>
    ⟨.getBlockByNumber (.number number), .ok (some (dailyBlock number))⟩) ++
  [⟨.getLogs (announcementFilter address developmentDescriptor.namespace 10 100), .ok nodeLogs⟩]

def nodeReport : ScanReport :=
  ⟨10, dailyBlock 100, ⟨100, (dailyBlock 100).hash⟩, false, 3, 1, 0, busyOutcome.candidates⟩

theorem honestNode_nodeScan : HonestNode busyChain nodeScan where
  blocks tag info hMem := by
    simp only [nodeScan, List.mem_append, List.mem_cons, List.mem_map, List.not_mem_nil, or_false] at hMem
    obtain ((h | h | h | h | h) | ⟨number, -, h⟩) | h := hMem
    all_goals cases h
    · exact ⟨rfl, by rintro _ ⟨⟩⟩
    · exact ⟨rfl, by rintro _ ⟨⟩; rfl⟩
  logs filter logs hMem hSignature := by
    simp only [nodeScan, List.mem_append, List.mem_cons, List.mem_map, List.not_mem_nil, or_false] at hMem
    obtain ((h | h | h | h | h) | ⟨number, -, h⟩) | h := hMem
    all_goals cases h
    have hChain : busyChain.logsIn developmentDescriptor.registry.address developmentDescriptor.namespace 10 100 =
        busyLogs := by decide
    have hKept : nodeLogs.filter (fun log => !log.removed) = busyLogs.map rpcLog := rfl
    change List.Forall₂ Encodes (busyChain.logsIn developmentDescriptor.registry.address
      developmentDescriptor.namespace 10 100) _
    rw [hChain, hKept, List.forall₂_map_right_iff]
    exact List.forall₂_same.mpr fun log hLog => encodes_rpcLog (by revert log; decide)

end Validating

/-- A scan through the adapter, over a node that tells the truth, is one pass over the chain's own logs in its window,
and the window leaves out nothing that is live. -/
theorem scan_through_alloy {decodeLog : LogDecoder} (hLawful : decodeLog.Lawful) (provider : AlloyRegistryProvider)
    (keccak256 : Bytes → B256) (scanner : RegistryScanner) (descriptor : NetworkDescriptor) (localNodeId : Bytes)
    (previous : Option ScanCheckpoint) (chain : Chain) {trace : List (Event EthereumNode)} {report : ScanReport}
    (hRun : ((provider.handler decodeLog).handle (scanner.scan keccak256 descriptor localNodeId previous).run).Runs
    trace
      (.ok report)) (hHonest : HonestNode chain trace) :
    PlainOutcome keccak256 scanner descriptor localNodeId v1Constants report.head
      (chain.logsIn descriptor.registry.address descriptor.namespace report.startBlock report.head.number)
      ⟨report.logsProcessed, report.recordsRejected, report.chunkReductions, report.candidates⟩ ∧
    (chain.Nondecreasing descriptor.registry.deploymentBlock report.head.number →
      WindowStart chain descriptor.registry.deploymentBlock report.head report.startBlock) := by
  obtain ⟨outer, hAnswers, hScan⟩ := Handler.runs_handle.mp hRun
  obtain ⟨hBlocks, hLogs⟩ := honest_of_answers hLawful hAnswers hHonest
  obtain ⟨constants, before, logsTrace, scanned, rfl, hPrelude, hScanLogs, hReport⟩ := returns_scan hScan
  obtain rfl := verifyConstants_eq_ok hPrelude.conforms
  have hPlain := scanLogs_plainOutcome hScanLogs (hLogs.mono (List.subset_append_right _ _))
  refine ⟨?_, hPrelude.windowStart (hBlocks.mono (List.subset_append_left _ _))⟩
  rw [hReport]
  exact hPlain

theorem scan_through_alloy_busy :
    PlainOutcome busyKeccak nodeScanner developmentDescriptor [1] v1Constants (dailyBlock 100)
      (busyChain.logsIn developmentDescriptor.registry.address developmentDescriptor.namespace 10 100)
      ⟨3, 1, 0, busyOutcome.candidates⟩ ∧ WindowStart busyChain 8 (dailyBlock 100) 10 := by
  have hRun : (((⟨false⟩ : AlloyRegistryProvider).handler validatingDecoder).handle
      (nodeScanner.scan busyKeccak developmentDescriptor [1] none).run).Runs nodeScan (.ok nodeReport) :=
    Prog.runs_of_replay (by decide +kernel)
  obtain ⟨hOutcome, hWindow⟩ := scan_through_alloy validatingDecoder_lawful ⟨false⟩ busyKeccak nodeScanner
    developmentDescriptor [1] none busyChain hRun honestNode_nodeScan
  exact ⟨hOutcome, hWindow (nondecreasing_daily rfl 8)⟩

section Transactions

variable {decodeLog : LogDecoder} {provider : AlloyRegistryProvider}

/-- The queries that only read. -/
def Reads : NodeQuery → Prop
  | .send .. => False
  | .getReceipt _ => False
  | _ => True

variable (decodeLog provider)

end Transactions

end Resurrect.Ethereum
