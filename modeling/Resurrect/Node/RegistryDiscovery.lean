import Resurrect.Bootstrap.Controller
import Resurrect.Ethereum.ScanLogs

/-! # The registry as a discovery source

`RegistryDiscovery::discover`: one scan, its checkpoint and counters, and a copy
of the candidates for the disposable cache. Sessions are calls on one instance.
-/

namespace Resurrect.Node

open Resurrect.Core Interaction Ethereum Bootstrap

structure TelemetrySnapshot where
  scans : UInt64
  scanFailures : UInt64
  logsProcessed : UInt64
  rejectedRecords : UInt64
  reorgs : UInt64
  announcements : UInt64
  deriving DecidableEq, Repr

inductive CacheError where
  | io (message : String)
  | sqlite (message : String)
  | task (message : String)
  | clock
  | numericOverflow (field : String)
  | invalidRow (field : String)
  deriving DecidableEq, Repr

inductive DiscoveryQuery where
  | provider (query : ProviderQuery)
  | storeVerified («namespace» : Namespace) (candidates : List PeerCandidate)
  deriving DecidableEq

/-- A registry provider, and the SQLite cache the source writes to. -/
abbrev DiscoveryIO : Interface where
  Query := DiscoveryQuery
  Answer
    | .provider query => RegistryProvider.Answer query
    | .storeVerified .. => Except CacheError Unit

instance : DecidableEq DiscoveryIO.Query := inferInstanceAs (DecidableEq DiscoveryQuery)

def providerPart : Embedding RegistryProvider DiscoveryIO where
  query := .provider
  answer _ := Equiv.refl _

def storeVerified (ns : Namespace) (candidates : List PeerCandidate) :
    Prog DiscoveryIO (Except CacheError Unit) :=
  Prog.ask (I := DiscoveryIO) (.storeVerified ns candidates)

structure RegistryDiscovery where
  descriptor : NetworkDescriptor
  codecs : CodecRegistry
  scannerConfig : ScannerConfig
  localNodeId : Bytes
  hasCache : Bool

/-- What one instance carries from call to call. -/
structure DiscoveryState where
  checkpoint : Option ScanCheckpoint
  telemetry : TelemetrySnapshot
  deriving DecidableEq, Repr

def DiscoveryState.new : DiscoveryState := ⟨none, ⟨0, 0, 0, 0, 0, 0⟩⟩

def DiscoveryState.failed (self : DiscoveryState) : DiscoveryState :=
  { self with telemetry := { self.telemetry with scanFailures := self.telemetry.scanFailures + 1 } }

def DiscoveryState.scanned (self : DiscoveryState) (report : ScanReport) : DiscoveryState where
  checkpoint := some report.checkpoint
  telemetry := { self.telemetry with
    scans := self.telemetry.scans + 1
    logsProcessed := self.telemetry.logsProcessed + UInt64.ofNat report.logsProcessed
    rejectedRecords := self.telemetry.rejectedRecords + UInt64.ofNat report.recordsRejected
    reorgs := if report.reorgDetected then self.telemetry.reorgs + 1 else self.telemetry.reorgs }

abbrev Discovered := Except BootstrapError (List PeerCandidate) × DiscoveryState

namespace RegistryDiscovery

variable (keccak256 : Bytes → B256) (self : RegistryDiscovery)

def scanner : RegistryScanner := ⟨self.codecs, self.scannerConfig⟩

def scan (state : DiscoveryState) : Prog DiscoveryIO (Except ScanError ScanReport) :=
  providerPart.lift (self.scanner.scan keccak256 self.descriptor self.localNodeId state.checkpoint).run

def discover (ns : Namespace) (state : DiscoveryState) : Prog DiscoveryIO Discovered := do
  if ns ≠ self.descriptor.namespace then
    pure (.error (.discovery "bootstrap namespace differs from descriptor"), state)
  else
    match ← self.scan keccak256 state with
    | .error error => pure (.error (.discovery error.toString), state.failed)
    | .ok report =>
      if self.hasCache then
        let _ ← storeVerified ns report.candidates
        pure (.ok report.candidates, state.scanned report)
      else pure (.ok report.candidates, state.scanned report)

end RegistryDiscovery

structure Call where
  «namespace» : Namespace
  trace : List (Event DiscoveryIO)
  result : Except BootstrapError (List PeerCandidate)

/-- Calls on one instance, one after another. -/
inductive Session (keccak256 : Bytes → B256) (discovery : RegistryDiscovery) : DiscoveryState → List Call → Prop
  | nil {state : DiscoveryState} : Session keccak256 discovery state []
  | cons {state next : DiscoveryState} {call : Call} {calls : List Call}
      (hCall : (discovery.discover keccak256 call.namespace state).Runs call.trace (call.result, next))
      (hRest : Session keccak256 discovery next calls) : Session keccak256 discovery state (call :: calls)

end Resurrect.Node
