import Resurrect.Browser.DescriptorAgreement
import Resurrect.Browser.Scanner
import Resurrect.Ethereum.ScanAnswers
import Resurrect.Foundation.Lockstep

/-! # One world before two scanners

A chain and a provider of it, as both clients meet them: the node through its
provider interface, the browser client through JSON-RPC. Whether a log request is
served or fails may depend on all earlier ones; both sides ask it by its range.
-/

namespace Resurrect.Browser

open Hex Interaction Word64
open Resurrect.Core (Address B256 U256 Announcement)
open Ethereum (BlockInfo)

/-- What a log request fails with, as the two clients are told. Both take it for a range error or neither does. -/
structure Failure where
  error : Ethereum.ProviderError
  message : String
  sameClass : isRangeError message ↔ ∃ text, error = .rangeLimit text

structure RpcLog.WellFormed (log : RpcLog) : Prop where
  address : isHexValue log.address
  topics : ∀ topic ∈ log.topics, isHexValue topic
  data : isHexValue log.data
  blockNumber : isHexValue log.blockNumber
  logIndex : isHexValue log.logIndex

structure World where
  chainId : U256
  constants : Address → Ethereum.RegistryConstants
  chain : Ethereum.Chain
  hash : UInt64 → B256
  latest : UInt64
  rpcLog : Announcement → RpcLog
  wellFormed : ∀ log, (rpcLog log).WellFormed
  /-- Why a request is not served, after the ranges asked for so far. -/
  fails : List (Nat × Nat) → Nat → Nat → Option Failure

section Json

def blockJson (block : BlockInfo) : Json :=
  .object [("number", .string (quantity block.number.toNat)), ("timestamp", .string (quantity block.timestamp.toNat)),
    ("hash", .string (hexText (Hex.ofNat 64 block.hash.val)))]

def rpcBlock (block : BlockInfo) : RpcBlock where
  number := quantity block.number.toNat
  timestamp := quantity block.timestamp.toNat
  hash := hexText (Hex.ofNat 64 block.hash.val)

def logJson (log : RpcLog) : Json :=
  .object [("address", .string log.address), ("topics", .array (log.topics.map .string)), ("data", .string log.data),
    ("blockNumber", .string log.blockNumber), ("logIndex", .string log.logIndex), ("removed", .bool log.removed)]

theorem bigInt_hexText (digits : List Char) : bigInt (hexText digits) = number digits := by
  rw [bigInt, drop_hexText]

theorem bigInt_quantity (n : Nat) : bigInt (quantity n) = n := by
  rw [quantity, bigInt_hexText, number_toDigits]

theorem isHexValue_hexText {digits : List Char} (hNonempty : digits ≠ []) (hDigits : digits.all isDigit) :
    isHexValue (hexText digits) := by
  rw [isHexValue, decide_eq_true_eq, drop_hexText, toList_hexText]
  exact ⟨rfl, hNonempty, hDigits⟩

theorem isHexValue_quantity (n : Nat) : isHexValue (quantity n) :=
  isHexValue_hexText Nat.toDigits_ne_nil (all_isDigit_toDigits n)

theorem isHexValue_word (n : Nat) : isHexValue (hexText (Hex.ofNat 64 n)) :=
  isHexValue_hexText (List.ne_nil_of_length_pos (by rw [length_ofNat]; decide)) (all_isDigit_ofNat 64 n)

theorem hexValue_string (message : String) {text : String} (h : isHexValue text) : hexValue message (.string text) = .ok text :=
  if_pos h

theorem asBlock_blockJson (tag : String) (block : BlockInfo) : asBlock tag (blockJson block) = .ok (rpcBlock block) := by
  have hNumber := hexValue_string ("provider returned malformed block " ++ tag)
    (isHexValue_quantity block.number.toNat)
  have hTimestamp := hexValue_string ("provider returned malformed block " ++ tag)
    (isHexValue_quantity block.timestamp.toNat)
  have hHash := hexValue_string ("provider returned malformed block " ++ tag) (isHexValue_word block.hash.val)
  change (do
    let number ← hexValue _ (.string (quantity block.number.toNat))
    let timestamp ← hexValue _ (.string (quantity block.timestamp.toNat))
    let hash ← hexValue _ (.string (hexText (Hex.ofNat 64 block.hash.val)))
    pure ({ number, timestamp, hash } : RpcBlock)) = _
  rw [hNumber, hTimestamp, hHash]
  rfl

theorem mapM_hexValue (message : String) {texts : List String} (h : ∀ text ∈ texts, isHexValue text) :
    (texts.map Json.string).mapM (hexValue message) = .ok texts := by
  induction texts with
  | nil => rfl
  | cons text texts ih =>
    obtain ⟨hText, hRest⟩ := List.forall_mem_cons.mp h
    rw [List.map_cons, List.mapM_cons, hexValue_string message hText, ih hRest]
    rfl

theorem asLog_logJson {log : RpcLog} (h : log.WellFormed) : asLog (logJson log) = .ok log := by
  have hTopics := mapM_hexValue "provider returned malformed log" h.topics
  change (do
    let address ← hexValue "provider returned malformed log" (.string log.address)
    let topics ← (log.topics.map Json.string).mapM (hexValue "provider returned malformed log")
    let data ← hexValue "provider returned malformed log" (.string log.data)
    let blockNumber ← hexValue "provider returned malformed log" (.string log.blockNumber)
    let logIndex ← hexValue "provider returned malformed log" (.string log.logIndex)
    pure (⟨address, topics, data, blockNumber, logIndex, log.removed⟩ : RpcLog)) = _
  rw [hexValue_string _ h.address, hTopics, hexValue_string _ h.data, hexValue_string _ h.blockNumber,
    hexValue_string _ h.logIndex]
  rfl

theorem asLogs_logJson {logs : List RpcLog} (h : ∀ log ∈ logs, log.WellFormed) :
    asLogs (.array (logs.map logJson)) = .ok logs := by
  change (logs.map logJson).mapM asLog = _
  induction logs with
  | nil => rfl
  | cons log logs ih =>
    obtain ⟨hLog, hRest⟩ := List.forall_mem_cons.mp h
    rw [List.map_cons, List.mapM_cons, asLog_logJson hLog, ih hRest]
    rfl

end Json

namespace World

variable (world : World)

def block (number : UInt64) : BlockInfo := ⟨number, world.chain.timestamp number, world.hash number⟩

/-- The node's provider. -/
def registry : Environment Ethereum.RegistryProvider (List (Nat × Nat)) where
  answer asked
    | .chainId => .ok world.chainId
    | .registryConstants address => .ok (world.constants address)
    | .block (.number number) => .ok (some (world.block number))
    | .block .latest => .ok (some (world.block world.latest))
    | .block .safe => .error (.unsupported "safe")
    | .block .finalized => .error (.unsupported "finalized")
    | .announcements address ns fromBlock toBlock =>
        match world.fails asked fromBlock.toNat toBlock.toNat with
        | some failure => .error failure.error
        | none => .ok (world.chain.logsIn address ns fromBlock toBlock)
    | .announce .. => .error .readOnly
  next asked
    | .announcements _ _ fromBlock toBlock => asked ++ [(fromBlock.toNat, toBlock.toNat)]
    | _ => asked

def constant (address : Address) (selector : String) : Option UInt32 :=
  if selector = versionSelector then some (world.constants address).version
  else if selector = maxTtlSelector then some (world.constants address).maxTtl
  else if selector = maxRecordBytesSelector then some (world.constants address).maxRecordBytes
  else none

def addressOf (text : String) : Address := Fin.ofNat _ (bigInt text)

def namespaceOf (topics : List String) : Core.Namespace := ⟨Fin.ofNat _ (bigInt (topics.getD 1 ""))⟩

/-- The browser client's provider. -/
def rpc : Environment RegistryProvider (List (Nat × Nat)) where
  answer asked
    | .ethChainId => .ok (.string (quantity world.chainId.val))
    | .ethCall «to» data =>
        match world.constant (addressOf «to») data with
        | some value => .ok (.string (hexText (Hex.ofNat 64 value.toNat)))
        | none => .error "execution reverted"
    | .ethGetBlockByNumber tag =>
        .ok (blockJson (world.block (if tag = "latest" then world.latest else UInt64.ofNat (bigInt tag))))
    | .ethGetLogs address topics fromBlock toBlock =>
        match world.fails asked (bigInt fromBlock) (bigInt toBlock) with
        | some failure => .error failure.message
        | none => .ok (.array ((world.chain.logsIn (addressOf address) (namespaceOf topics)
            (UInt64.ofNat (bigInt fromBlock)) (UInt64.ofNat (bigInt toBlock))).map fun log => logJson (world.rpcLog log)))
  next asked
    | .ethGetLogs _ _ fromBlock toBlock => asked ++ [(bigInt fromBlock, bigInt toBlock)]
    | _ => asked

end World

section Same

variable {ours : NetworkDescriptor} {theirs : Core.NetworkDescriptor}

theorem number_of_bytes? {digits : List Char} {width n : Nat} (h : bytes? digits = some (beBytes width n))
    (hn : n < 16 ^ (width * 2)) : number digits = n := by
  rw [← number_map_toLower, bytes?_eq_some.mp h, spell_beBytes, number_ofNat_of_lt hn]

theorem Same.addressOf (h : Same ours theirs) : World.addressOf ours.registry.address = theirs.registry.address := by
  apply Fin.ext
  have hLt : theirs.registry.address.val < 16 ^ (20 * 2) := theirs.registry.address.isLt
  change bigInt ours.registry.address % 2 ^ 160 = theirs.registry.address.val
  rw [bigInt, number_of_bytes? h.address hLt]
  exact Nat.mod_eq_of_lt theirs.registry.address.isLt

theorem Same.namespaceOf (h : Same ours theirs) (topic : String) :
    World.namespaceOf [topic, ours.namespace] = theirs.namespace := by
  have hLt : theirs.namespace.bytes.val < 16 ^ (32 * 2) := theirs.namespace.bytes.isLt
  have hName : bigInt ours.namespace = theirs.namespace.bytes.val := number_of_bytes? h.name hLt
  change (⟨Fin.ofNat _ (bigInt ours.namespace)⟩ : Core.Namespace) = theirs.namespace
  rw [hName, Fin.ofNat_val_eq_self]

end Same

end Resurrect.Browser
