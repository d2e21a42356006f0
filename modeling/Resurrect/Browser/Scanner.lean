import Resurrect.Browser.AnnouncementData
import Resurrect.Browser.Candidate
import Resurrect.Browser.Descriptor
import Resurrect.Foundation.AssocMap
import Mathlib.Algebra.Order.Ring.Nat
import Mathlib.Data.List.Sort

/-! # The registry scanner of the browser client

`scanRegistry` as a program over a JSON-RPC provider: the conformance checks, the
scan window, and the chunked reading of its logs into a bounded map of candidates.
Bigints are natural numbers; an error, thrown or rejected, is its message.
-/

namespace Resurrect.Browser

open Hex Numeral Interaction AssocMap

inductive RpcRequest where
  | ethChainId
  | ethCall («to» data : String)
  | ethGetBlockByNumber (tag : String)
  | ethGetLogs (address : String) (topics : List String) (fromBlock toBlock : String)
  deriving DecidableEq

abbrev RegistryProvider : Interface where
  Query := RpcRequest
  Answer _ := Except String Json

instance : DecidableEq RegistryProvider.Query := inferInstanceAs (DecidableEq RpcRequest)

abbrev ScanM := ExceptT String (Prog RegistryProvider)

structure RpcBlock where
  number : String
  timestamp : String
  hash : String
  deriving DecidableEq, Repr

structure RpcLog where
  address : String
  topics : List String
  data : String
  blockNumber : String
  logIndex : String
  removed : Bool
  deriving DecidableEq, Repr

/-- A number that is no integer fails the checks on the integers below just as one out of range does. -/
structure ScanOptions where
  confirmations : Option Int
  maxBlockLookback : Option Int
  initialChunkSize : Option Int
  minimumChunkSize : Option Int
  maxLogs : Option Int
  maxCandidates : Option Int
  maxEndpointsPerRecord : Option Int
  allowPrivateEndpoints : Option Bool
  deriving DecidableEq, Repr

structure ScanReport where
  startBlock : Nat
  headBlock : Nat
  headTimestamp : Nat
  logsProcessed : Nat
  recordsRejected : Nat
  chunkReductions : Nat
  candidates : List BrowserPeerCandidate
  deriving DecidableEq, Repr

def versionSelector : String := "0xffa1ad74"
def maxTtlSelector : String := "0xe01b402d"
def maxRecordBytesSelector : String := "0x9e64fef0"
def peerAnnouncedTopic : String := "0x7d1c1d3bcf95382eea4fdac25defde4e7ea513c29a4f5cb05e6c1adcc6b3b2bf"
def ethereumMainnetMaxBlocksPerTtl : Int := 650000

section Values

def quantity (value : Nat) : String := hexText (Nat.toDigits 16 value)

/-- `BigInt` of a prefixed text of hex digits. -/
def bigInt (text : String) : Nat := number (text.toList.drop 2)

def isHexValue (text : String) : Bool :=
  text.toList.take 2 = ['0', 'x'] ∧ text.toList.drop 2 ≠ [] ∧ (text.toList.drop 2).all isDigit

def hexValue (message : String) : Json → Except String String
  | .string text => if isHexValue text then .ok text else .error message
  | _ => .error message

def asHex (value : Json) (field : String) : Except String String :=
  hexValue ("provider returned invalid " ++ field) value

def asBlock (tag : String) (value : Json) : Except String RpcBlock := do
  let message := "provider returned malformed block " ++ tag
  let value ← asRecord message value
  let number ← hexValue message (member value "number")
  let timestamp ← hexValue message (member value "timestamp")
  let hash ← hexValue message (member value "hash")
  pure { number, timestamp, hash }

def isTrue : Json → Bool
  | .bool value => value
  | _ => false

def asLog (value : Json) : Except String RpcLog := do
  let message := "provider returned malformed log"
  let log ← asRecord message value
  let address ← hexValue message (member log "address")
  let topics ← asArray message (member log "topics")
  let topics ← topics.mapM (hexValue message)
  let data ← hexValue message (member log "data")
  let blockNumber ← hexValue message (member log "blockNumber")
  let logIndex ← hexValue message (member log "logIndex")
  pure { address, topics, data, blockNumber, logIndex, removed := isTrue (member log "removed") }

def asLogs (value : Json) : Except String (List RpcLog) := do
  let logs ← asArray "provider returned malformed logs" value
  logs.mapM asLog

/-- Lower case is taken of ASCII letters, the only ones that have it in a needle. -/
def isRangeError (message : String) : Bool :=
  ["range", "too many", "response size", "limit exceeded", "request timeout"].any fun needle =>
    needle.toList <:+: (toLowerCase message).toList

end Values

section Requests

def request (query : RpcRequest) : ScanM Json := attempt id (Prog.ask (I := RegistryProvider) query)

def checked {α : Type} (result : Except String α) : ScanM α := ExceptT.mk (pure result)

def readConstant (address selector name : String) : Prog RegistryProvider (Except String Nat) := do
  let answer ← Prog.ask (I := RegistryProvider) (.ethCall address selector)
  pure (do
    let value ← answer
    let text ← asHex value name
    pure (bigInt text))

/-- All three constants are requested before an answer is looked at. Where several fail, the first in this
order stands for the one that failed first. -/
def readConstants (address : String) : ScanM (Nat × Nat × Nat) := do
  let version ← ExceptT.lift (readConstant address versionSelector "VERSION")
  let maxTtl ← ExceptT.lift (readConstant address maxTtlSelector "MAX_TTL")
  let maxRecord ← ExceptT.lift (readConstant address maxRecordBytesSelector "MAX_RECORD_BYTES")
  checked (do
    let version ← version
    let maxTtl ← maxTtl
    let maxRecord ← maxRecord
    pure (version, maxTtl, maxRecord))

def verifyProvider (descriptor : NetworkDescriptor) : ScanM Unit := do
  let answer ← request .ethChainId
  let text ← checked (asHex answer "chain ID")
  if bigInt text ≠ descriptor.registry.chainId then
    throw ("provider chain ID " ++ Nat.repr (bigInt text) ++ " does not match descriptor chain ID " ++
      Nat.repr descriptor.registry.chainId)
  else
    let (version, maxTtl, maxRecord) ← readConstants descriptor.registry.address
    if version ≠ 1 ∨ maxTtl ≠ 7776000 ∨ maxRecord ≠ 4096 ∨ maxTtl ≠ descriptor.registry.maxTtlSeconds then
      throw "deployed registry constants do not match Resurrect v1"
    else pure ()

def getBlock (tag : String) : ScanM RpcBlock := do
  let value ← request (.ethGetBlockByNumber tag)
  checked (asBlock tag value)

/-- Bisects for the first block whose timestamp is at least `cutoff`. -/
def findStartBlock (cutoff low high : Nat) : ScanM Nat := do
  if _h : low < high then
    let middle := low + (high - low) / 2
    let block ← getBlock (quantity middle)
    if bigInt block.timestamp < cutoff then findStartBlock cutoff (middle + 1) high
    else findStartBlock cutoff low middle
  else pure low
termination_by high - low

end Requests

section Options

def positiveInteger (field : String) : Option Int → Except String Unit
  | none => .ok ()
  | some value => ensure (value.natAbs ≤ maxSafeInteger ∧ 1 ≤ value) (field ++ " must be a positive integer")

def validateOptions (options : ScanOptions) : Except String Unit := do
  ensure (0 ≤ options.confirmations.getD 0) "confirmations must not be negative"
  ensure (1 ≤ options.maxBlockLookback.getD 1) "maxBlockLookback must be positive"
  ensure (1 ≤ options.initialChunkSize.getD 1) "initialChunkSize must be positive"
  ensure (1 ≤ options.minimumChunkSize.getD 1) "minimumChunkSize must be positive"
  positiveInteger "maxLogs" options.maxLogs
  positiveInteger "maxCandidates" options.maxCandidates
  positiveInteger "maxEndpointsPerRecord" options.maxEndpointsPerRecord

end Options

/-- The head of a scan and the first block it reads. -/
structure ScanWindow where
  headNumber : Nat
  head : RpcBlock
  startBlock : Nat
  deriving DecidableEq, Repr

def ScanWindow.headTimestamp (window : ScanWindow) : Nat := bigInt window.head.timestamp

section Window

def confirmedNumber (options : ScanOptions) (latest : RpcBlock) : Nat :=
  let confirmations := (options.confirmations.getD 12).toNat
  if confirmations < bigInt latest.number then bigInt latest.number - confirmations else 0

def confirmedBlock (headNumber : Nat) (latest : RpcBlock) : ScanM RpcBlock :=
  if headNumber ≠ bigInt latest.number then getBlock (quantity headNumber) else pure latest

def oldestLive (headTimestamp maxTtlSeconds : Nat) : Nat :=
  if maxTtlSeconds < headTimestamp then headTimestamp - maxTtlSeconds else 0

def lookbackStart (deploymentBlock headNumber maxBlockLookback : Nat) : Nat :=
  max deploymentBlock (if maxBlockLookback < headNumber + 1 then headNumber - maxBlockLookback + 1 else 0)

/-- With a lookback the latest block is the clock, and no older block is asked for. -/
def scanWindow (descriptor : NetworkDescriptor) (options : ScanOptions) : ScanM ScanWindow := do
  let latest ← getBlock "latest"
  let headNumber := confirmedNumber options latest
  if headNumber < descriptor.registry.deploymentBlock then
    throw "registry deployment is newer than confirmed head"
  else
    match options.maxBlockLookback with
    | none =>
      let head ← confirmedBlock headNumber latest
      let startBlock ← findStartBlock (oldestLive (bigInt head.timestamp) descriptor.registry.maxTtlSeconds)
        descriptor.registry.deploymentBlock headNumber
      pure { headNumber, head, startBlock }
    | some maxBlockLookback =>
      pure {
        headNumber
        head := latest
        startBlock := lookbackStart descriptor.registry.deploymentBlock headNumber maxBlockLookback.toNat }

end Window

abbrev Candidates := AList fun _ : String => BrowserPeerCandidate

section Store

/-- `1`, `-1` or `0`, as `left` is fresher, staler or neither. -/
def compareFreshness (left right : BrowserPeerCandidate) : Int :=
  if left.sequence ≠ right.sequence then if right.sequence < left.sequence then 1 else -1
  else if left.blockNumber ≠ right.blockNumber then if right.blockNumber < left.blockNumber then 1 else -1
  else if left.logIndex ≠ right.logIndex then if right.logIndex < left.logIndex then 1 else -1
  else 0

/-- viem's `concat` of prefixed texts. -/
def concat (values : List String) : String := hexText (values.flatMap fun value => value.toList.drop 2)

/-- The bytes viem hashes of a prefixed text, an odd digit taken with a zero before it. -/
def hexToBytes (hex : String) : Except String Bytes :=
  let digits := hex.toList.drop 2
  match bytes? (if digits.length % 2 = 0 then digits else '0' :: digits) with
  | some bytes => .ok bytes
  | none => .error "invalid byte sequence"

theorem hexToBytes_hexText {digits : List Char} {bytes : Bytes} (h : digits.map Char.toLower = spell bytes) :
    hexToBytes (hexText digits) = .ok bytes := by
  have hLength := congrArg List.length h
  rw [List.length_map, length_spell] at hLength
  rw [hexToBytes, drop_hexText, if_pos (by omega), bytes?_eq_some.mpr h]

variable (keccak256 : Bytes → Core.B256)

def score («namespace» headHash peerId : String) : Except String Nat := do
  let bytes ← hexToBytes (concat [headHash, «namespace», hexText (spell peerId.toUTF8.data.toList)])
  pure (keccak256 bytes).val

/-- The first of the keys that score worst, with its score. -/
def worstOf (score : String → Except String Nat) (peerIds : List String) : Except String (Option (String × Nat)) :=
  peerIds.foldlM (fun worst peerId => do
    let value ← score peerId
    pure (match worst with
      | none => some (peerId, value)
      | some (held, worstScore) => if worstScore < value then some (peerId, value) else some (held, worstScore))) none

def insertBounded (store : Candidates) (candidate : BrowserPeerCandidate) (cap : Nat) («namespace» headHash : String) :
    Except String Candidates :=
  match store.lookup candidate.peerId with
  | some existing =>
    if 0 < compareFreshness candidate existing then .ok (write store candidate.peerId candidate) else .ok store
  | none =>
    if store.keys.length < cap then .ok (write store candidate.peerId candidate)
    else do
      let incomingScore ← score keccak256 «namespace» headHash candidate.peerId
      let worst ← worstOf (score keccak256 «namespace» headHash) store.keys
      match worst with
      | some (peerId, worstScore) =>
        if incomingScore < worstScore then pure (write (store.erase peerId) candidate.peerId candidate) else pure store
      | none => pure store

/-- `localeCompare` is the collation of the host. -/
def compareCandidates (localeCompare : String → String → Int) (left right : BrowserPeerCandidate) : Int :=
  if compareFreshness right left ≠ 0 then compareFreshness right left else localeCompare left.peerId right.peerId

end Store

structure RecordOptions where
  maxEndpoints : Option Int
  allowPrivateEndpoints : Option Bool
  deriving DecidableEq, Repr

structure LogProgress where
  logsProcessed : Nat
  recordsRejected : Nat
  candidates : Candidates

section Scan

variable (keccak256 : Bytes → Core.B256)
  (decodeBrowserPeerRecord : String → Nat → Nat → Nat → RecordOptions → Except String BrowserPeerCandidate)
  (localeCompare : String → String → Int)

/-- The record type is compared as a number, and only `2` itself rounds to `2`. -/
def decodeLog (descriptor : NetworkDescriptor) (options : ScanOptions) (headTimestamp : Nat) (log : RpcLog) :
    Except String BrowserPeerCandidate := do
  ensure (¬ log.removed ∧ toLowerCase log.address = toLowerCase descriptor.registry.address) "wrong log source"
  ensure (log.topics[0]?.map toLowerCase = some peerAnnouncedTopic ∧
    log.topics[1]?.map toLowerCase = some (toLowerCase descriptor.namespace)) "wrong event"
  match log.topics[2]? with
  | none => .error "missing record type topic"
  | some topic =>
    ensure (bigInt topic ∈ descriptor.acceptedRecordTypes ∧ bigInt topic = 2) "unsupported record type"
    let (validUntil, peerRecord) ← decodeAnnouncementData log.data
    ensure (headTimestamp < validUntil) "expired record"
    decodeBrowserPeerRecord peerRecord validUntil (bigInt log.blockNumber) (bigInt log.logIndex)
      ⟨options.maxEndpointsPerRecord, options.allowPrivateEndpoints⟩

/-- Whatever is thrown on the way, the log counts as rejected and the map is as before. -/
def processLog (descriptor : NetworkDescriptor) (options : ScanOptions) (head : RpcBlock) (progress : LogProgress)
    (log : RpcLog) : LogProgress :=
  let result := do
    let candidate ← decodeLog decodeBrowserPeerRecord descriptor options (bigInt head.timestamp) log
    insertBounded keccak256 progress.candidates candidate (options.maxCandidates.getD 256).toNat descriptor.namespace
      head.hash
  match result with
  | .ok candidates => { progress with logsProcessed := progress.logsProcessed + 1, candidates }
  | .error _ => { progress with
      logsProcessed := progress.logsProcessed + 1
      recordsRejected := progress.recordsRejected + 1 }

def chunkEnd («from» chunk headNumber : Nat) : Nat := min («from» + max 1 chunk - 1) headNumber

theorem le_chunkEnd {«from» headNumber : Nat} (chunk : Nat) (h : «from» ≤ headNumber) :
    «from» ≤ chunkEnd «from» chunk headNumber := by
  rw [chunkEnd]
  omega

theorem chunkEnd_le («from» chunk headNumber : Nat) : chunkEnd «from» chunk headNumber ≤ headNumber := min_le_right _ _

/-- Reads the logs up to the head in chunks. What `asLogs` throws is caught with the rejections. -/
def scanChunks (descriptor : NetworkDescriptor) (options : ScanOptions) (headNumber : Nat) (head : RpcBlock)
    («from» chunk chunkReductions : Nat) (progress : LogProgress) : ScanM (LogProgress × Nat) := do
  let maxLogs := (options.maxLogs.getD 50000).toNat
  let minimumChunk := (options.minimumChunkSize.getD 64).toNat
  if _h : «from» ≤ headNumber ∧ progress.logsProcessed < maxLogs then
    let «to» := chunkEnd «from» chunk headNumber
    let answer ← ExceptT.lift (Prog.ask (I := RegistryProvider) (.ethGetLogs descriptor.registry.address
      [peerAnnouncedTopic, descriptor.namespace] (quantity «from») (quantity «to»)))
    match answer >>= asLogs with
    | .ok logs =>
      let progress := (logs.take (maxLogs - progress.logsProcessed)).foldl
        (processLog keccak256 decodeBrowserPeerRecord descriptor options head) progress
      if _hTo : «to» = headNumber then pure (progress, chunkReductions)
      else scanChunks descriptor options headNumber head («to» + 1) chunk chunkReductions progress
    | .error message =>
      if _hChunk : minimumChunk < chunk ∧ isRangeError message then
        scanChunks descriptor options headNumber head «from» (max (chunk / 2) minimumChunk) (chunkReductions + 1) progress
      else throw message
  else pure (progress, chunkReductions)
termination_by headNumber + 1 - «from» + chunk
decreasing_by
  · have hEnd := le_chunkEnd chunk _h.1
    omega
  · omega

def scanRegistry (descriptor : NetworkDescriptor) (options : ScanOptions) : ScanM ScanReport := do
  checked (validateOptions options)
  verifyProvider descriptor
  let window ← scanWindow descriptor options
  let (progress, chunkReductions) ← scanChunks keccak256 decodeBrowserPeerRecord descriptor options window.headNumber
    window.head window.startBlock (options.initialChunkSize.getD 10000).toNat 0 ⟨0, 0, ∅⟩
  pure {
    startBlock := window.startBlock
    headBlock := window.headNumber
    headTimestamp := window.headTimestamp
    logsProcessed := progress.logsProcessed
    recordsRejected := progress.recordsRejected
    chunkReductions
    candidates := (progress.candidates.entries.map (·.2)).insertionSort fun left right =>
      compareCandidates localeCompare left right ≤ 0 }

end Scan

section Runs

variable {trace history : List (Event RegistryProvider)} {target : RpcRequest}

theorem returns_request {query : RpcRequest} {value : Json} :
    Returns (request query) trace value ↔ trace = [⟨query, .ok value⟩] := by
  rw [request, returns_attempt]
  exact Prog.runs_ask

theorem invokes_request {query : RpcRequest} :
    Invokes (request query) history target ↔ history = [] ∧ target = query := by
  rw [request, invokes_attempt]
  exact Prog.reaches_ask

theorem returns_checked {α : Type} {result : Except String α} {value : α} :
    Returns (checked result) trace value ↔ trace = [] ∧ result = .ok value :=
  and_congr_right fun _ => eq_comm

theorem invokes_checked {α : Type} {result : Except String α} : ¬ Invokes (checked result) history target := id

theorem returns_getBlock {tag : String} {block : RpcBlock} : Returns (getBlock tag) trace block ↔
    ∃ value, trace = [⟨.ethGetBlockByNumber tag, .ok value⟩] ∧ asBlock tag value = .ok block := by
  rw [getBlock, returns_bind]
  constructor
  · rintro ⟨first, value, second, rfl, hRequest, hRest⟩
    obtain ⟨rfl, hBlock⟩ := returns_checked.mp hRest
    exact ⟨value, by rw [returns_request.mp hRequest, List.append_nil], hBlock⟩
  · rintro ⟨value, rfl, hBlock⟩
    exact ⟨_, value, [], (List.append_nil _).symm, returns_request.mpr rfl, returns_checked.mpr ⟨rfl, hBlock⟩⟩

theorem invokes_getBlock {tag : String} :
    Invokes (getBlock tag) history target ↔ history = [] ∧ target = .ethGetBlockByNumber tag := by
  rw [getBlock, invokes_bind, invokes_request, or_iff_left]
  rintro ⟨first, value, second, -, -, hRest⟩
  exact invokes_checked hRest

theorem invokes_findStartBlock {cutoff low high : Nat} (h : Invokes (findStartBlock cutoff low high) history target) :
    ∃ tag, target = .ethGetBlockByNumber tag := by
  fun_induction findStartBlock cutoff low high generalizing history
  case case1 low high hLt middle ihHigh ihLow =>
    obtain h | ⟨_, block, _, -, -, h⟩ := invokes_bind.mp h
    · exact ⟨_, (invokes_getBlock.mp h).2⟩
    · split at h
      · exact ihHigh h
      · exact ihLow h
  case case2 => exact absurd h invokes_pure

theorem invokes_confirmedBlock {headNumber : Nat} {latest : RpcBlock}
    (h : Invokes (confirmedBlock headNumber latest) history target) : ∃ tag, target = .ethGetBlockByNumber tag := by
  rw [confirmedBlock] at h
  split at h
  · exact ⟨_, (invokes_getBlock.mp h).2⟩
  · exact absurd h invokes_pure

theorem invokes_scanWindow {descriptor : NetworkDescriptor} {options : ScanOptions}
    (h : Invokes (scanWindow descriptor options) history target) : ∃ tag, target = .ethGetBlockByNumber tag := by
  rw [scanWindow] at h
  obtain h | ⟨_, latest, _, -, -, h⟩ := invokes_bind.mp h
  · exact ⟨_, (invokes_getBlock.mp h).2⟩
  dsimp only at h
  split at h
  · exact absurd h invokes_throw
  split at h
  · obtain h | ⟨_, head, _, -, -, h⟩ := invokes_bind.mp h
    · exact invokes_confirmedBlock h
    obtain h | ⟨_, startBlock, _, -, -, h⟩ := invokes_bind.mp h
    · exact invokes_findStartBlock h
    · exact absurd h invokes_pure
  · exact absurd h invokes_pure

theorem invokes_readConstants {address : String} (h : Invokes (readConstants address) history target) :
    ∃ selector, target = .ethCall address selector := by
  have hConstant : ∀ {history : List (Event RegistryProvider)} {selector name : String},
      (readConstant address selector name).Reaches history target → ∃ selector, target = .ethCall address selector := by
    intro history selector name h
    obtain ⟨-, hTarget⟩ | ⟨_, _, -, h⟩ := Prog.reaches_ask_bind.mp h
    · exact ⟨selector, hTarget⟩
    · exact absurd h Prog.reaches_pure
  rw [readConstants] at h
  obtain h | ⟨_, _, _, -, -, h⟩ := invokes_bind.mp h
  · exact hConstant (invokes_lift.mp h)
  obtain h | ⟨_, _, _, -, -, h⟩ := invokes_bind.mp h
  · exact hConstant (invokes_lift.mp h)
  obtain h | ⟨_, _, _, -, -, h⟩ := invokes_bind.mp h
  · exact hConstant (invokes_lift.mp h)
  · exact absurd h invokes_checked

theorem invokes_verifyProvider {descriptor : NetworkDescriptor} (h : Invokes (verifyProvider descriptor) history target) :
    target = .ethChainId ∨ ∃ address selector, target = .ethCall address selector := by
  rw [verifyProvider] at h
  obtain h | ⟨_, answer, _, -, -, h⟩ := invokes_bind.mp h
  · exact .inl (invokes_request.mp h).2
  obtain h | ⟨_, text, _, -, -, h⟩ := invokes_bind.mp h
  · exact absurd h invokes_checked
  split at h
  · exact absurd h invokes_throw
  obtain h | ⟨_, ⟨version, maxTtl, maxRecord⟩, _, -, -, h⟩ := invokes_bind.mp h
  · obtain ⟨selector, hTarget⟩ := invokes_readConstants h
    exact .inr ⟨_, selector, hTarget⟩
  · dsimp only at h
    split at h
    · exact absurd h invokes_throw
    · exact absurd h invokes_pure

theorem returns_verifyProvider {descriptor : NetworkDescriptor} {result : Unit}
    (h : Returns (verifyProvider descriptor) trace result) : descriptor.registry.maxTtlSeconds = 7776000 := by
  rw [verifyProvider] at h
  obtain ⟨_, answer, _, -, -, h⟩ := returns_bind.mp h
  obtain ⟨_, text, _, -, -, h⟩ := returns_bind.mp h
  split at h
  · exact absurd h returns_throw
  obtain ⟨_, ⟨version, maxTtl, maxRecord⟩, _, -, -, h⟩ := returns_bind.mp h
  dsimp only at h
  split at h
  · exact absurd h returns_throw
  rename_i hConstants
  simp only [not_or, not_not] at hConstants
  rw [← hConstants.2.2.2, hConstants.2.1]

end Runs

section Completed

variable {keccak256 : Bytes → Core.B256}
  {decodeBrowserPeerRecord : String → Nat → Nat → Nat → RecordOptions → Except String BrowserPeerCandidate}
  {localeCompare : String → String → Int} {descriptor : NetworkDescriptor} {options : ScanOptions}

theorem returns_scanRegistry {trace : List (Event RegistryProvider)} {report : ScanReport}
    (h : Returns (scanRegistry keccak256 decodeBrowserPeerRecord localeCompare descriptor options) trace report) :
    ∃ before windowTrace logsTrace window, trace = before ++ (windowTrace ++ logsTrace) ∧
      descriptor.registry.maxTtlSeconds = 7776000 ∧ Returns (scanWindow descriptor options) windowTrace window ∧
      report.startBlock = window.startBlock ∧ report.headBlock = window.headNumber ∧
      report.headTimestamp = window.headTimestamp := by
  rw [scanRegistry] at h
  obtain ⟨first, _, rest, rfl, hOptions, hRest⟩ := returns_bind.mp h
  obtain ⟨rfl, -⟩ := returns_checked.mp hOptions
  obtain ⟨before, _, rest, rfl, hVerify, hRest⟩ := returns_bind.mp hRest
  obtain ⟨windowTrace, window, rest, rfl, hWindow, hRest⟩ := returns_bind.mp hRest
  obtain ⟨_, ⟨progress, chunkReductions⟩, _, rfl, -, hRest⟩ := returns_bind.mp hRest
  obtain ⟨rfl, rfl⟩ := returns_pure.mp hRest
  exact ⟨before, windowTrace, _, window, rfl, returns_verifyProvider hVerify, hWindow, rfl, rfl, rfl⟩

/-- A scan asks for logs only after it has settled on its window, whether or not it then comes to an end. -/
theorem invokes_scanRegistry {history : List (Event RegistryProvider)} {address fromBlock toBlock : String}
    {topics : List String}
    (h : Invokes (scanRegistry keccak256 decodeBrowserPeerRecord localeCompare descriptor options) history
      (.ethGetLogs address topics fromBlock toBlock)) :
    ∃ before windowTrace after window, history = before ++ (windowTrace ++ after) ∧
      descriptor.registry.maxTtlSeconds = 7776000 ∧ Returns (scanWindow descriptor options) windowTrace window ∧
      Invokes (scanChunks keccak256 decodeBrowserPeerRecord descriptor options window.headNumber window.head
        window.startBlock (options.initialChunkSize.getD 10000).toNat 0 ⟨0, 0, ∅⟩) after
        (.ethGetLogs address topics fromBlock toBlock) := by
  rw [scanRegistry] at h
  obtain h | ⟨first, _, rest, rfl, hOptions, hRest⟩ := invokes_bind.mp h
  · exact absurd h invokes_checked
  obtain ⟨rfl, -⟩ := returns_checked.mp hOptions
  obtain hHere | ⟨before, _, rest, rfl, hVerify, hRest⟩ := invokes_bind.mp hRest
  · obtain hTarget | ⟨_, _, hTarget⟩ := invokes_verifyProvider hHere
    · cases hTarget
    · cases hTarget
  obtain hHere | ⟨windowTrace, window, rest, rfl, hWindow, hRest⟩ := invokes_bind.mp hRest
  · obtain ⟨_, hTarget⟩ := invokes_scanWindow hHere
    cases hTarget
  obtain hHere | ⟨_, ⟨progress, chunkReductions⟩, _, -, -, hRest⟩ := invokes_bind.mp hRest
  · exact ⟨before, windowTrace, rest, window, rfl, returns_verifyProvider hVerify, hWindow, hHere⟩
  · exact absurd hRest invokes_pure

end Completed

end Resurrect.Browser
