import Resurrect.Foundation.Duration
import Resurrect.Node.RegistryDiscovery

/-! # The supervisor

`Supervisor::run`: an unbounded loop that keeps a connected node announced and
runs bootstrap cycles while it is not. Its environment is the adapters of the
cycle, the clock, the status file, and waits that a shutdown may cut short.
-/

namespace Resurrect.Node

open Resurrect.Core Interaction Bootstrap

structure SupervisorPolicy where
  bootstrap : BootstrapPolicy
  connectedPollInterval : Duration
  initialBackoff : Duration
  maximumBackoff : Duration
  maintenanceTtl : Duration
  deriving DecidableEq, Repr

structure NodeStatus where
  peerId : String
  state : BootstrapState
  connectedPeers : Nat
  connectedVia : Option BootstrapState
  transitions : List BootstrapState
  registry : TelemetrySnapshot
  lastError : Option String
  updatedAt : UInt64
  deriving DecidableEq, Repr

inductive SupervisorError where
  | io (message : String)
  | json (message : String)
  deriving DecidableEq, Repr

inductive SupervisorQuery where
  | adapter (query : AdapterQuery)
  | renewalDue
  | telemetrySnapshot
  | unixTime
  | writeAtomicJson (path : String) (status : NodeStatus)
  | randomRange (maximum : UInt64)
  | waitOrShutdown (duration : Duration)
  deriving DecidableEq

/-- What a supervisor runs over. A wait answers whether it was cut short by the shutdown. -/
abbrev SupervisorIO : Interface where
  Query := SupervisorQuery
  Answer
    | .adapter query => Adapters.Answer query
    | .renewalDue => Bool
    | .telemetrySnapshot => TelemetrySnapshot
    | .unixTime => UInt64
    | .writeAtomicJson .. => Except SupervisorError Unit
    | .randomRange maximum => {drawn : UInt64 // drawn ≤ maximum}
    | .waitOrShutdown _ => Bool

instance : DecidableEq SupervisorIO.Query := inferInstanceAs (DecidableEq SupervisorQuery)

def adapterPart : Embedding Adapters SupervisorIO where
  query := .adapter
  answer _ := Equiv.refl _

namespace SupervisorIO

def renewalDue : Prog SupervisorIO Bool := Prog.ask (I := SupervisorIO) .renewalDue

def telemetrySnapshot : Prog SupervisorIO TelemetrySnapshot := Prog.ask (I := SupervisorIO) .telemetrySnapshot

def unixTime : Prog SupervisorIO UInt64 := Prog.ask (I := SupervisorIO) .unixTime

def writeAtomicJson (path : String) (status : NodeStatus) : Prog SupervisorIO (Except SupervisorError Unit) :=
  Prog.ask (I := SupervisorIO) (.writeAtomicJson path status)

def randomRange (maximum : UInt64) : Prog SupervisorIO {drawn : UInt64 // drawn ≤ maximum} :=
  Prog.ask (I := SupervisorIO) (.randomRange maximum)

def waitOrShutdown (duration : Duration) : Prog SupervisorIO Bool :=
  Prog.ask (I := SupervisorIO) (.waitOrShutdown duration)

def connectedPeers : Prog SupervisorIO Nat := Prog.ask (I := SupervisorIO) (.adapter .connectedPeers)

def announce (ttl : Duration) : Prog SupervisorIO (Except BootstrapError Unit) :=
  Prog.ask (I := SupervisorIO) (.adapter (.announce ttl))

end SupervisorIO

def connectionTarget (policy : BootstrapPolicy) : Nat := max policy.minimumSuccessfulPeers 1

def exponentialBackoff (initial maximum : Duration) (attempt : UInt32) : Duration :=
  (initial.saturatingMul (1 <<< min attempt 20)).shorter maximum

/-- The part of the delay that is drawn. -/
def jitterWindow (base : Duration) : UInt64 :=
  .ofNat (min (base.saturatingSub base.half).asNanos 18446744073709551615)

def jittered (base : Duration) (drawn : UInt64) : Duration :=
  base.half.saturatingAdd (.fromNanos drawn)

def backoffWithJitter (initial maximum : Duration) (attempt : UInt32) : Prog SupervisorIO Duration := do
  let base := exponentialBackoff initial maximum attempt
  let drawn ← SupervisorIO.randomRange (jitterWindow base)
  pure (jittered base drawn)

structure SupervisorState where
  attempts : UInt32
  lastConnectedVia : Option BootstrapState
  deriving DecidableEq, Repr

def SupervisorState.new : SupervisorState := ⟨0, none⟩

structure CycleReport where
  state : BootstrapState
  connectedVia : Option BootstrapState
  transitions : List BootstrapState
  lastError : Option String
  deriving DecidableEq, Repr

def CycleReport.ofResult : Except BootstrapError BootstrapOutcome → CycleReport
  | .ok outcome => ⟨outcome.state, outcome.connectedVia, outcome.transitions, none⟩
  | .error error => ⟨.backoff, none, [.backoff], some error.toString⟩

def connectedViaAfter (result : Except BootstrapError BootstrapOutcome) (previous : Option BootstrapState) :
    Option BootstrapState :=
  match result with
  | .ok outcome => outcome.connectedVia <|> previous
  | .error _ => previous

/-- The end of a run; a round that is not the last leaves the next state instead. -/
abbrev RoundEnd := SupervisorState ⊕ Except SupervisorError Unit

structure Supervisor where
  «namespace» : Namespace
  peerId : String
  policy : SupervisorPolicy
  statusFile : Option String

namespace Supervisor

variable (self : Supervisor)

def publishStatus (status : NodeStatus) : Prog SupervisorIO (Except SupervisorError Unit) :=
  match self.statusFile with
  | none => pure (.ok ())
  | some path => SupervisorIO.writeAtomicJson path status

def renew : Prog SupervisorIO (Option String) := do
  if ← SupervisorIO.renewalDue then
    match ← SupervisorIO.announce self.policy.maintenanceTtl with
    | .error error => pure (some error.toString)
    | .ok () => pure none
  else pure none

def maintain (state : SupervisorState) (connected : Nat) : Prog SupervisorIO RoundEnd := do
  let lastError ← self.renew
  let registry ← SupervisorIO.telemetrySnapshot
  let updatedAt ← SupervisorIO.unixTime
  match ← self.publishStatus {
      peerId := self.peerId
      state := .connected
      connectedPeers := connected
      connectedVia := state.lastConnectedVia
      transitions := [.connected]
      registry := registry
      lastError := lastError
      updatedAt := updatedAt } with
  | .error error => pure (.inr (.error error))
  | .ok () =>
    if ← SupervisorIO.waitOrShutdown self.policy.connectedPollInterval then pure (.inr (.ok ()))
    else pure (.inl { state with attempts := 0 })

def conclude (state : SupervisorState) (result : Except BootstrapError BootstrapOutcome) :
    Prog SupervisorIO RoundEnd := do
  let report := CycleReport.ofResult result
  let lastConnectedVia := connectedViaAfter result state.lastConnectedVia
  let connected ← SupervisorIO.connectedPeers
  let registry ← SupervisorIO.telemetrySnapshot
  let updatedAt ← SupervisorIO.unixTime
  match ← self.publishStatus {
      peerId := self.peerId
      state := report.state
      connectedPeers := connected
      connectedVia := report.connectedVia
      transitions := report.transitions
      registry := registry
      lastError := report.lastError
      updatedAt := updatedAt } with
  | .error error => pure (.inr (.error error))
  | .ok () =>
    if report.state = .connected then pure (.inl ⟨0, lastConnectedVia⟩)
    else
      let delay ← backoffWithJitter self.policy.initialBackoff self.policy.maximumBackoff state.attempts
      let attempts := if state.attempts = 4294967295 then state.attempts else state.attempts + 1
      if ← SupervisorIO.waitOrShutdown delay then pure (.inr (.ok ()))
      else pure (.inl ⟨attempts, lastConnectedVia⟩)

def round (state : SupervisorState) : Prog SupervisorIO RoundEnd := do
  let connected ← SupervisorIO.connectedPeers
  if connectionTarget self.policy.bootstrap ≤ connected then self.maintain state connected
  else
    let controller : BootstrapController := ⟨self.policy.bootstrap⟩
    let result ← adapterPart.lift (controller.runCycle self.namespace)
    self.conclude state result

/-- `run`, having completed `rounds`, invokes `target` in the round it is in. -/
def RunReaches (rounds : List (List (Event SupervisorIO))) (current : List (Event SupervisorIO))
    (target : SupervisorQuery) : Prop :=
  LoopReaches self.round .new rounds current target

end Supervisor

/-- What a round asks besides its cycle and its publisher. -/
def Housekeeping : SupervisorQuery → Prop
  | .adapter .connectedPeers => True
  | .telemetrySnapshot => True
  | .unixTime => True
  | .writeAtomicJson .. => True
  | .randomRange _ => True
  | .waitOrShutdown _ => True
  | _ => False

section Queries

variable {supervisor : Supervisor} {history : List (Event SupervisorIO)} {target : SupervisorQuery}

theorem asks_publishStatus (status : NodeStatus) : (supervisor.publishStatus status).Asks Housekeeping := by
  rw [Supervisor.publishStatus]
  split
  · exact Prog.asks_pure _
  · exact Prog.asks_ask trivial

theorem asks_conclude (state : SupervisorState) (result : Except BootstrapError BootstrapOutcome) :
    (supervisor.conclude state result).Asks Housekeeping := by
  refine Prog.asks_ask_bind trivial fun connected => ?_
  refine Prog.asks_ask_bind trivial fun registry => ?_
  refine Prog.asks_ask_bind trivial fun updatedAt => ?_
  apply (asks_publishStatus _).bind
  intro published
  split
  · exact Prog.asks_pure _
  split
  · exact Prog.asks_pure _
  apply Prog.Asks.bind
  · exact Prog.asks_ask_bind trivial fun drawn => Prog.asks_pure _
  intro delay
  refine Prog.asks_ask_bind trivial fun stopped => ?_
  split <;> exact Prog.asks_pure _

theorem reaches_renew (h : supervisor.renew.Reaches history target) :
    history = [] ∧ target = .renewalDue ∨
      history = [⟨.renewalDue, true⟩] ∧ target = .adapter (.announce supervisor.policy.maintenanceTtl) := by
  obtain hDue | ⟨due, rest, rfl, hRest⟩ := Prog.reaches_ask_bind.mp h
  · exact .inl hDue
  cases due with
  | false => exact absurd hRest Prog.reaches_pure
  | true =>
    obtain ⟨rfl, rfl⟩ | ⟨announced, rest, rfl, hLast⟩ := Prog.reaches_ask_bind.mp hRest
    · exact .inr ⟨rfl, rfl⟩
    · cases announced <;> exact absurd hLast Prog.reaches_pure

theorem reaches_maintain {state : SupervisorState} {connected : Nat}
    (h : (supervisor.maintain state connected).Reaches history target) :
    supervisor.renew.Reaches history target ∨ Housekeeping target := by
  obtain h | ⟨first, lastError, second, rfl, -, h⟩ := Prog.reaches_bind.mp h
  · exact .inl h
  suffices hRest : Prog.Asks Housekeeping _ from .inr (hRest second target h)
  refine Prog.asks_ask_bind trivial fun registry => ?_
  refine Prog.asks_ask_bind trivial fun updatedAt => ?_
  apply (asks_publishStatus _).bind
  intro published
  split
  · exact Prog.asks_pure _
  refine Prog.asks_ask_bind trivial fun stopped => ?_
  split <;> exact Prog.asks_pure _

end Queries

theorem connectionTarget_eq (controller : BootstrapController) :
    connectionTarget controller.policy = controller.connectionTarget := by
  rw [connectionTarget, BootstrapController.connectionTarget]
  split
  · rename_i hZero
    rw [hZero]
    rfl
  · rename_i hPos
    exact max_eq_left (Nat.one_le_iff_ne_zero.mpr hPos)

section Backoff

variable (base : Duration)

theorem asNanos_half : base.half.asNanos = base.asNanos / 2 := by
  have hLongest : base.asNanos ≤ Duration.longest.asNanos := base.asNanos_le
  rw [Duration.half, Duration.asNanos_ofNanos]
  omega

/-- Neither adding the draw nor turning it into a span loses anything. -/
theorem asNanos_jittered {drawn : UInt64} (h : drawn ≤ jitterWindow base) :
    (jittered base drawn).asNanos = base.asNanos / 2 + drawn.toNat ∧
      drawn.toNat ≤ base.asNanos - base.asNanos / 2 := by
  have hLongest : base.asNanos ≤ Duration.longest.asNanos := base.asNanos_le
  have hLongestEq : Duration.longest.asNanos = 18446744073709551615999999999 := by decide
  have hDrawn := drawn.toNat_lt
  have hWindow : drawn.toNat ≤ base.asNanos - base.asNanos / 2 := by
    rw [UInt64.le_iff_toNat_le, jitterWindow, Duration.saturatingSub, Duration.asNanos_ofNanos,
      asNanos_half, UInt64.toNat_ofNat'] at h
    omega
  refine ⟨?_, hWindow⟩
  rw [jittered, Duration.saturatingAdd, Duration.asNanos_ofNanos, asNanos_half, Duration.fromNanos,
    Duration.asNanos_ofNanos]
  omega

theorem jittered_mem {drawn : UInt64} (h : drawn ≤ jitterWindow base) :
    base.asNanos / 2 ≤ (jittered base drawn).asNanos ∧ (jittered base drawn).asNanos ≤ base.asNanos := by
  obtain ⟨hSum, hDrawn⟩ := asNanos_jittered base h
  omega

end Backoff

end Resurrect.Node
