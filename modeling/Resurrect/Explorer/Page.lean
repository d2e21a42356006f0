import Resurrect.Explorer.Model
import Resurrect.Explorer.PeerProbe
import Mathlib.Logic.Function.Basic

/-! # The page of the explorer

The handlers of `main.ts` as a machine: each input is something the visitor does,
or the settling of a promise that a handler awaits, and each step runs one handler
up to its next `await`. A disabled button gets no click, and Enter in the field of
a form does not press it.
-/

namespace Resurrect.Explorer

open Hex Interaction Browser

structure Network where
  descriptor : NetworkDescriptor
  selection : NamespaceSelection
  deriving DecidableEq, Repr

/-- What the visitor typed into the namespace row. -/
structure Fields where
  application : String
  version : String
  deriving DecidableEq, Repr

/-- The public endpoints in turn, or one provider under its label. -/
inductive Source where
  | defaults
  | single (label : String)
  deriving DecidableEq, Repr

/-- How a scan ended; `unbegun` is a `beginScan` that threw, outside of any `try`. -/
inductive Outcome where
  | found (provider : String) (failures : List RpcAttemptFailure) (report : ScanReport)
  | exhausted (failures : List RpcAttemptFailure)
  | failed (error : String)
  | unbegun (error : String)

/-- Awaiting the close of the active probe, awaiting a provider after some that failed, or done. -/
inductive ScanPhase where
  | closing
  | asking (failures : List RpcAttemptFailure)
  | settled (outcome : Outcome)

structure Scan where
  network : Network
  source : Source
  phase : ScanPhase

inductive StatusState where
  | idle
  | loading
  | connected
  | error
  deriving DecidableEq, Repr

structure Metrics where
  peers : String
  announcements : String
  head : String
  deriving DecidableEq, Repr

inductive PeerList where
  | empty (message : String)
  | peers (cards : List Nat)
  deriving DecidableEq, Repr

/-- What the scans write, and the scans by their number. The buttons and the namespace fields are disabled together. -/
structure Board where
  scanNumber : Nat
  busy : Bool
  status : StatusState × String
  scanContext : String
  scanSummary : Option Metrics
  fallback : Bool
  namespaceError : Option String
  formError : Option String
  peerList : PeerList
  scans : Nat → Option Scan

/-- The badge, button and result of a card; `checking` is the one with a disabled button. -/
inductive CardView where
  | announced
  | checking
  | live (probe : PeerProbeResult)
  | offline (message : String)
  deriving DecidableEq, Repr

structure Card where
  candidate : BrowserPeerCandidate
  view : CardView
  deriving DecidableEq, Repr

/-- Awaiting the module, the close of the active probe or the probe itself, or done. -/
inductive ProbePhase where
  | importing
  | closing
  | probing
  | live (probe : PeerProbeResult)
  | failed (error : String)

structure Probe where
  card : Nat
  phase : ProbePhase

/-- Sessions go by the place of the probe that opened them; `closed` are those whose `close` was called. -/
structure Page where
  board : Board
  cards : List Card
  activeProbe : Option Nat
  closed : List Nat
  probes : List Probe

inductive PageInput where
  | submitScan (fields : Fields)
  | submitRpc (fields : Fields) (url : String)
  | clickWallet (fields : Fields) (ethereum : Bool)
  | begun (scan : Nat) (outcome : Except String Unit)
  | answered (scan : Nat) (outcome : Except String ScanReport)
  | clickPing (card : Nat)
  | imported (probe : Nat) (outcome : Except String Unit)
  | closed (probe : Nat) (outcome : Except String Unit)
  | probed (probe : Nat) (outcome : Except String PeerProbeResult)
  | pagehide

def selectedNetwork (keccak256 : Bytes → Core.B256) (fields : Fields) : Except String Network := do
  let selection ← resolveNamespace keccak256 fields.application (.text fields.version)
  let descriptor ← networkDescriptor keccak256 selection.application (.integer selection.majorVersion)
  pure { descriptor, selection }

/-- What is scanned is the deployed registry, under the selected namespace. -/
theorem selectedNetwork_eq_ok {keccak256 : Bytes → Core.B256} {fields : Fields} {network : Network} :
    selectedNetwork keccak256 fields = .ok network ↔ ∃ selection,
      resolveNamespace keccak256 fields.application (.text fields.version) = .ok selection ∧
      network = ⟨mainnet keccak256 selection.namespace, selection⟩ := by
  simp only [selectedNetwork, bind_eq_ok]
  constructor
  · rintro ⟨selection, hSelection, descriptor, hDescriptor, hNetwork⟩
    rw [networkDescriptor_of_resolved hSelection] at hDescriptor
    cases hDescriptor
    cases hNetwork
    exact ⟨selection, hSelection, rfl⟩
  · rintro ⟨selection, hSelection, rfl⟩
    exact ⟨selection, hSelection, _, networkDescriptor_of_resolved hSelection, rfl⟩

namespace Board

variable (self : Board)

def new : Board where
  scanNumber := 0
  busy := false
  status := (.idle, "idle")
  scanContext := "ethereum:1 // resurrect:v1"
  scanSummary := none
  fallback := false
  namespaceError := none
  formError := none
  peerList := .empty "ready to scan signed peer records."
  scans _ := none

def renderEmpty (message : String) : Board := { self with peerList := .empty message }

def invalidNamespace (error : String) : Board :=
  { self with namespaceError := some (errorMessage error), status := (.error, "invalid namespace") }

def showProviderError (error : String) (namespaceLabel : Option String) : Board :=
  { self with
    fallback := true
    formError := some (friendlyError error)
    status := (.error, "failed")
    scanContext := match namespaceLabel with
      | none => "manual provider failed // retry or scan defaults"
      | some label => label ++ " // provider failed"
    peerList := .empty "scan incomplete." }

/-- The synchronous part of `beginScan`. -/
def beginScan (network : Network) (source : Source) : Board :=
  { self with
    scanNumber := self.scanNumber + 1
    namespaceError := none
    formError := none
    busy := true
    scanSummary := none
    scans := Function.update self.scans (self.scanNumber + 1) (some ⟨network, source, .closing⟩) }

def advance (number : Nat) (scan : Scan) : Board :=
  { self with scans := Function.update self.scans number (some scan) }

/-- One round of the loop over the endpoints, or what its end throws and `scanDefaults` catches. -/
def attempt (number : Nat) (network : Network) (failures : List RpcAttemptFailure) : Board :=
  match defaultRpcEndpoints[failures.length]? with
  | some endpoint =>
      let asking := self.advance number ⟨network, .defaults, .asking failures⟩
      if number ≠ self.scanNumber then asking
      else { asking with
        status := (.loading, "scanning")
        scanContext := network.selection.label ++ " // rpc " ++ toString (failures.length + 1) ++ "/" ++
          toString defaultRpcEndpoints.length ++ " // " ++ endpoint.name
        peerList := .empty ("querying " ++ endpoint.name ++ "…") }
  | none =>
      let settled := self.advance number ⟨network, .defaults, .settled (.exhausted failures)⟩
      if number ≠ self.scanNumber then settled
      else { settled with
        fallback := true
        status := (.error, "rpc failed")
        scanContext := network.selection.label ++ " // tried " ++ toString defaultRpcEndpoints.length ++ " public RPCs"
        peerList := .empty "scan incomplete."
        busy := false }

/-- What a scan does once its `beginScan` has returned. -/
def proceed (number : Nat) (network : Network) : Source → Board
  | .defaults => { self with fallback := false }.attempt number network []
  | .single label => { self.advance number ⟨network, .single label, .asking []⟩ with
      status := (.loading, "scanning")
      scanContext := network.selection.label ++ " // " ++ label
      peerList := .empty ("querying " ++ label ++ "…") }

/-- The `catch` and `finally` of `scanSingleProvider`. -/
def fail (number : Nat) (network : Network) (source : Source) (error : String) : Board :=
  let settled := self.advance number ⟨network, source, .settled (.failed error)⟩
  if number ≠ self.scanNumber then settled
  else { settled.showProviderError error (some network.selection.label) with busy := false }

end Board

namespace Page

variable (platform : Platform) (keccak256 : Bytes → Core.B256) (self : Page)

def new : Page := ⟨.new, [], none, [], []⟩

section Scans

/-- `activeProbe?.close()`. -/
def closeActive : Page := { self with closed := self.activeProbe.toList ++ self.closed }

def beginScan (network : Network) (source : Source) : Page :=
  { self.closeActive with board := self.board.beginScan network source }

def scanDefaults (fields : Fields) : Page :=
  if self.board.busy then self
  else match selectedNetwork keccak256 fields with
    | .error error => { self with board := self.board.invalidNamespace error }
    | .ok network => self.beginScan network .defaults

def scanSingleProvider (fields : Fields) (label : String) : Page :=
  match selectedNetwork keccak256 fields with
  | .error error => { self with board := self.board.invalidNamespace error }
  | .ok network => self.beginScan network (.single label)

def showProviderError (error : String) : Page := { self with board := self.board.showProviderError error none }

/-- What `jsonRpcProvider` throws is caught nowhere. -/
def scanCustomRpc (fields : Fields) (value : String) : Page :=
  match normalizeRpcUrl platform value with
  | .error error => self.showProviderError error
  | .ok url =>
    match jsonRpcHost platform url with
    | .error _ => self
    | .ok host => self.scanSingleProvider keccak256 fields ("custom // " ++ host)

def scanWallet (fields : Fields) (ethereum : Bool) : Page :=
  if ethereum then self.scanSingleProvider keccak256 fields "injected wallet"
  else self.showProviderError "No browser wallet was found. Enable one or enter an Ethereum RPC URL."

/-- The end of `beginScan` and, as no event comes between the two, what follows it. -/
def begun (number : Nat) (outcome : Except String Unit) : Page :=
  match self.board.scans number with
  | some ⟨network, source, .closing⟩ =>
    match outcome with
    | .error error => { self with board := self.board.advance number ⟨network, source, .settled (.unbegun error)⟩ }
    | .ok () => { self with activeProbe := none, board := self.board.proceed number network source }
  | _ => self

def metrics (report : ScanReport) : Metrics :=
  let summary := summarizeScan platform report
  { peers := summary.browserPeers, announcements := summary.announcements, head := summary.confirmedHead }

def renderReport (report : ScanReport) (provider namespaceLabel : String) : Page :=
  let board := { self.board with
    scanContext := namespaceLabel ++ " // " ++ provider ++ " // " ++ formatChainTime platform report.headTimestamp
    scanSummary := some (metrics platform report) }
  if report.candidates = [] then
    { self with board := board.renderEmpty (if 0 < report.recordsRejected then
        platform.toLocaleString report.recordsRejected ++ " records were expired, invalid, or not browser-ready."
      else "No browser-ready peers found.") }
  else { self with
    board := { board with peerList := .peers (List.range' self.cards.length report.candidates.length) }
    cards := self.cards ++ report.candidates.map fun candidate => ⟨candidate, .announced⟩ }

/-- A scan that got its report: the rest of its `try`, and its `finally`. -/
def finish (number : Nat) (network : Network) (source : Source) (provider : String) (failures : List RpcAttemptFailure)
    (report : ScanReport) : Page :=
  let settled := { self with
    board := self.board.advance number ⟨network, source, .settled (.found provider failures report)⟩ }
  if number ≠ self.board.scanNumber then settled
  else
    let rendered := settled.renderReport platform report provider network.selection.label
    { rendered with board := { rendered.board with status := (.connected, "found"), busy := false } }

def answered (number : Nat) (outcome : Except String ScanReport) : Page :=
  match self.board.scans number with
  | some ⟨network, .defaults, .asking failures⟩ =>
    match defaultRpcEndpoints[failures.length]?, outcome with
    | some endpoint, .ok report => self.finish platform number network .defaults endpoint.name failures report
    | some endpoint, .error error =>
        { self with board := self.board.attempt number network (failures ++ [⟨endpoint, error⟩]) }
    | none, _ => self
  | some ⟨network, .single label, .asking failures⟩ =>
    match outcome with
    | .ok report => self.finish platform number network (.single label) label failures report
    | .error error => { self with board := self.board.fail number network (.single label) error }
  | _ => self

end Scans

section Probes

def setView (card : Nat) (view : CardView) : Page :=
  { self with cards := self.cards.modify card fun shown => { shown with view := view } }

def runProbe (card : Nat) : Page :=
  match self.cards[card]? with
  | none => self
  | some shown =>
    if shown.view = .checking then self
    else { self.setView card .checking with probes := self.probes ++ [⟨card, .importing⟩] }

/-- The `catch` of `runProbe`. -/
def offline (probe card : Nat) (error : String) : Page :=
  { self.setView card (.offline (errorMessage error)) with
    probes := self.probes.set probe ⟨card, .failed error⟩ }

def imported (probe : Nat) (outcome : Except String Unit) : Page :=
  match self.probes[probe]? with
  | some ⟨card, .importing⟩ =>
    match outcome with
    | .error error => self.offline probe card error
    | .ok () => { self.closeActive with probes := self.probes.set probe ⟨card, .closing⟩ }
  | _ => self

def closeSettled (probe : Nat) (outcome : Except String Unit) : Page :=
  match self.probes[probe]? with
  | some ⟨card, .closing⟩ =>
    match outcome with
    | .error error => self.offline probe card error
    | .ok () => { self with probes := self.probes.set probe ⟨card, .probing⟩ }
  | _ => self

def probed (probe : Nat) (outcome : Except String PeerProbeResult) : Page :=
  match self.probes[probe]? with
  | some ⟨card, .probing⟩ =>
    match outcome with
    | .error error => self.offline probe card error
    | .ok result => { self.setView card (.live result) with
        activeProbe := some probe
        probes := self.probes.set probe ⟨card, .live result⟩ }
  | _ => self

end Probes

def step : PageInput → Page
  | .submitScan fields => self.scanDefaults keccak256 fields
  | .submitRpc fields url => if self.board.busy then self else self.scanCustomRpc platform keccak256 fields url
  | .clickWallet fields ethereum => if self.board.busy then self else self.scanWallet keccak256 fields ethereum
  | .begun scan outcome => self.begun scan outcome
  | .answered scan outcome => self.answered platform scan outcome
  | .clickPing card => self.runProbe card
  | .imported probe outcome => self.imported probe outcome
  | .closed probe outcome => self.closeSettled probe outcome
  | .probed probe outcome => self.probed probe outcome
  | .pagehide => self.closeActive

def run (inputs : List PageInput) : Page := inputs.foldl (step platform keccak256) new

theorem run_append (inputs : List PageInput) (input : PageInput) :
    run platform keccak256 (inputs ++ [input]) = (run platform keccak256 inputs).step platform keccak256 input :=
  List.foldl_append

end Page

end Resurrect.Explorer
