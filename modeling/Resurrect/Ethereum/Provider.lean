import Resurrect.Core.Validation
import Resurrect.Ethereum.Beacon
import Resurrect.Foundation.Interaction
import Resurrect.Foundation.Word64

/-! # Registry providers and the chain behind them

The transport the scanner and the announcer ask. A provider may answer anything;
`HonestBlocks` and `HonestLogs` say that the answers of a run agree with a chain.
-/

namespace Resurrect.Ethereum

open Resurrect.Core Interaction

structure RegistryConstants where
  version : UInt32
  maxTtl : UInt32
  maxRecordBytes : UInt32
  deriving DecidableEq, Repr

structure BlockInfo where
  number : UInt64
  timestamp : UInt64
  hash : B256
  deriving DecidableEq, Repr

inductive BlockReference where
  | number (number : UInt64)
  | latest
  | safe
  | finalized
  deriving DecidableEq, Repr

inductive ProviderError where
  | configuration (message : String)
  | request (message : String)
  | rangeLimit (message : String)
  | unsupported (message : String)
  | missing (object : String)
  | readOnly
  deriving DecidableEq, Repr

def ProviderError.toString : ProviderError → String
  | .configuration message => "invalid provider configuration: " ++ message
  | .request message => "registry provider request failed: " ++ message
  | .rangeLimit message => "registry provider log range is too large: " ++ message
  | .unsupported message => "registry provider feature is unsupported: " ++ message
  | .missing object => "registry provider returned no " ++ object
  | .readOnly => "registry provider is read-only"

inductive ProviderQuery where
  | chainId
  | registryConstants (address : Address)
  | block (reference : BlockReference)
  | announcements (address : Address) («namespace» : Namespace) (fromBlock toBlock : UInt64)
  | announce (address : Address) («namespace» : Namespace) (recordType ttl : UInt32) (peerRecord : Bytes)
  deriving DecidableEq

abbrev RegistryProvider : Interface where
  Query := ProviderQuery
  Answer
    | .chainId => Except ProviderError U256
    | .registryConstants _ => Except ProviderError RegistryConstants
    | .block _ => Except ProviderError (Option BlockInfo)
    | .announcements .. => Except ProviderError (List Announcement)
    | .announce .. => Except ProviderError B256

instance : DecidableEq RegistryProvider.Query := inferInstanceAs (DecidableEq ProviderQuery)

namespace RegistryProvider

def chainId : Prog RegistryProvider (Except ProviderError U256) :=
  Prog.ask (I := RegistryProvider) .chainId

def registryConstants (address : Address) :
    Prog RegistryProvider (Except ProviderError RegistryConstants) :=
  Prog.ask (I := RegistryProvider) (.registryConstants address)

def block (reference : BlockReference) :
    Prog RegistryProvider (Except ProviderError (Option BlockInfo)) :=
  Prog.ask (I := RegistryProvider) (.block reference)

def announcements (address : Address) (ns : Namespace) (fromBlock toBlock : UInt64) :
    Prog RegistryProvider (Except ProviderError (List Announcement)) :=
  Prog.ask (I := RegistryProvider) (.announcements address ns fromBlock toBlock)

def announce (address : Address) (ns : Namespace) (recordType ttl : UInt32) (peerRecord : Bytes) :
    Prog RegistryProvider (Except ProviderError B256) :=
  Prog.ask (I := RegistryProvider) (.announce address ns recordType ttl peerRecord)

variable {trace history : List (Event RegistryProvider)} {target : ProviderQuery}

theorem runs_chainId {result : Except ProviderError U256} :
    chainId.Runs trace result ↔ trace = [⟨.chainId, result⟩] := Prog.runs_ask

theorem runs_registryConstants {address : Address} {result : Except ProviderError RegistryConstants} :
    (registryConstants address).Runs trace result ↔ trace = [⟨.registryConstants address, result⟩] :=
  Prog.runs_ask

theorem runs_block {reference : BlockReference} {result : Except ProviderError (Option BlockInfo)} :
    (block reference).Runs trace result ↔ trace = [⟨.block reference, result⟩] := Prog.runs_ask

theorem runs_announcements {address : Address} {ns : Namespace} {fromBlock toBlock : UInt64}
    {result : Except ProviderError (List Announcement)} :
    (announcements address ns fromBlock toBlock).Runs trace result ↔
      trace = [⟨.announcements address ns fromBlock toBlock, result⟩] := Prog.runs_ask

theorem reaches_chainId : chainId.Reaches history target ↔ history = [] ∧ target = .chainId :=
  Prog.reaches_ask

theorem reaches_registryConstants {address : Address} :
    (registryConstants address).Reaches history target ↔
      history = [] ∧ target = .registryConstants address := Prog.reaches_ask

theorem reaches_block {reference : BlockReference} :
    (block reference).Reaches history target ↔ history = [] ∧ target = .block reference :=
  Prog.reaches_ask

theorem reaches_announcements {address : Address} {ns : Namespace} {fromBlock toBlock : UInt64} :
    (announcements address ns fromBlock toBlock).Reaches history target ↔
      history = [] ∧ target = .announcements address ns fromBlock toBlock := Prog.reaches_ask

end RegistryProvider

def ChainOrder (a b : Announcement) : Prop :=
  a.blockNumber < b.blockNumber ∨ a.blockNumber = b.blockNumber ∧ a.logIndex < b.logIndex

instance : DecidableRel ChainOrder := fun a b =>
  inferInstanceAs (Decidable (a.blockNumber < b.blockNumber ∨ _))

/-- Block timestamps, and the logs behind each address and namespace topic in chain order. -/
structure Chain where
  timestamp : UInt64 → UInt64
  logs : Address → Namespace → List Announcement
  ordered : ∀ address ns, (logs address ns).Pairwise ChainOrder

namespace Chain

def Nondecreasing (chain : Chain) (first last : UInt64) : Prop :=
  ∀ a b, first ≤ a → a ≤ b → b ≤ last → chain.timestamp a ≤ chain.timestamp b

def logsIn (chain : Chain) (address : Address) (ns : Namespace) (fromBlock toBlock : UInt64) :
    List Announcement :=
  (chain.logs address ns).filter fun log => fromBlock ≤ log.blockNumber ∧ log.blockNumber ≤ toBlock

/-- What the beacon reads as the timestamp of a block. -/
def blockTimestamp (chain : Chain) (block : UInt64) : U256 :=
  ⟨(chain.timestamp block).toNat, (chain.timestamp block).toNat_lt.trans (by decide)⟩

@[simp] theorem ofNat_blockTimestamp (chain : Chain) (block : UInt64) :
    UInt64.ofNat (chain.blockTimestamp block).val = chain.timestamp block :=
  UInt64.ofNat_toNat

end Chain

/-- Every header in the answers is the chain's, and is the one asked for by number. -/
def HonestBlocks (chain : Chain) (trace : List (Event RegistryProvider)) : Prop :=
  ∀ reference info, (⟨.block reference, .ok (some info)⟩ : Event RegistryProvider) ∈ trace →
    info.timestamp = chain.timestamp info.number ∧
      ∀ number, reference = .number number → info.number = number

/-- Every answered log query lists the chain's logs in its range. Refusals are not constrained. -/
def HonestLogs (chain : Chain) (trace : List (Event RegistryProvider)) : Prop :=
  ∀ address ns fromBlock toBlock logs,
    (⟨.announcements address ns fromBlock toBlock, .ok logs⟩ : Event RegistryProvider) ∈ trace →
      logs = chain.logsIn address ns fromBlock toBlock

theorem HonestBlocks.mono {chain : Chain} {trace part : List (Event RegistryProvider)}
    (h : HonestBlocks chain trace) (hPart : part ⊆ trace) : HonestBlocks chain part :=
  fun reference info hMem => h reference info (hPart hMem)

theorem HonestLogs.mono {chain : Chain} {trace part : List (Event RegistryProvider)}
    (h : HonestLogs chain trace) (hPart : part ⊆ trace) : HonestLogs chain part :=
  fun address ns fromBlock toBlock logs hMem => h address ns fromBlock toBlock logs (hPart hMem)

/-- A list splits at a property that, once lost, stays lost. -/
theorem filter_eq_append {α : Type} {r : α → α → Prop} {low keep : α → Bool} {l : List α}
    (hOrdered : l.Pairwise r) (hLow : ∀ a b, r a b → low b → low a) :
    l.filter keep = l.filter (fun a => keep a && low a) ++ l.filter (fun a => keep a && !low a) := by
  induction l with
  | nil => rfl
  | cons a rest ih =>
    obtain ⟨hHead, hRest⟩ := List.pairwise_cons.mp hOrdered
    cases hA : low a with
    | true =>
      simp only [List.filter_cons, hA, Bool.and_true, Bool.not_true, Bool.and_false,
        Bool.false_eq_true, if_false]
      split
      · rw [ih hRest, List.cons_append]
      · exact ih hRest
    | false =>
      have hNone : ∀ b ∈ a :: rest, low b = false := by
        intro b hb
        obtain rfl | hb := List.mem_cons.mp hb
        · exact hA
        · exact Bool.eq_false_iff.mpr fun hb' => by simp [hLow a b (hHead b hb) hb'] at hA
      have hNil : (a :: rest).filter (fun b => keep b && low b) = [] :=
        List.filter_eq_nil_iff.mpr fun b hb => by simp [hNone b hb]
      rw [hNil, List.nil_append]
      exact List.filter_congr fun b hb => by simp [hNone b hb]

theorem Chain.logsIn_append (chain : Chain) (address : Address) (ns : Namespace)
    {fromBlock middle toBlock : UInt64} (hFrom : fromBlock ≤ middle) (hTo : middle < toBlock) :
    chain.logsIn address ns fromBlock toBlock =
      chain.logsIn address ns fromBlock middle ++ chain.logsIn address ns (middle + 1) toBlock := by
  rw [UInt64.le_iff_toNat_le] at hFrom
  rw [UInt64.lt_iff_toNat_lt] at hTo
  have hNext := Word64.toNat_add_one_of_lt hTo
  have hLow : ∀ a b : Announcement, ChainOrder a b →
      decide (b.blockNumber ≤ middle) → decide (a.blockNumber ≤ middle) := by
    intro a b hOrder hb
    rw [decide_eq_true_eq] at hb ⊢
    obtain hLt | ⟨hEq, -⟩ := hOrder
    · exact UInt64.le_trans (UInt64.le_of_lt hLt) hb
    · rwa [hEq]
  rw [Chain.logsIn, filter_eq_append (chain.ordered address ns) hLow, Chain.logsIn, Chain.logsIn]
  congr 1
  · apply List.filter_congr
    intro log _
    rw [← Bool.decide_and]
    rw [decide_eq_decide]
    simp only [UInt64.le_iff_toNat_le]
    omega
  · apply List.filter_congr
    intro log _
    rw [← decide_not, ← Bool.decide_and]
    rw [decide_eq_decide]
    simp only [UInt64.le_iff_toNat_le, hNext]
    omega

theorem Chain.logsIn_eq_nil (chain : Chain) (address : Address) (ns : Namespace)
    {fromBlock toBlock : UInt64} (h : toBlock < fromBlock) :
    chain.logsIn address ns fromBlock toBlock = [] := by
  apply List.filter_eq_nil_iff.mpr
  intro log _
  rw [decide_eq_true_eq]
  rintro ⟨hFrom, hTo⟩
  exact absurd (UInt64.le_trans hFrom hTo) (UInt64.not_le.mpr h)

theorem Chain.mem_logsIn {chain : Chain} {address : Address} {ns : Namespace} {fromBlock toBlock : UInt64}
    {log : Announcement} : log ∈ chain.logsIn address ns fromBlock toBlock ↔
      log ∈ chain.logs address ns ∧ fromBlock ≤ log.blockNumber ∧ log.blockNumber ≤ toBlock := by
  rw [Chain.logsIn, List.mem_filter, decide_eq_true_eq]

end Resurrect.Ethereum
