import Resurrect.Core.PeerRecord
import Resurrect.Foundation.Duration
import Resurrect.Foundation.Interaction
import Mathlib.Data.List.Basic

/-! # The bootstrap controller

`BootstrapController::run_cycle`: cache, native discovery, registry, isolated
promotion, once. The adapters are the environment; concurrent dials are polled
one event at a time, in any order the adapters choose.
-/

namespace Resurrect.Bootstrap

open Resurrect.Core Interaction

inductive BootstrapError where
  | discovery (message : String)
  | announcement (message : String)
  | nativePeerStore (message : String)
  deriving DecidableEq, Repr

def BootstrapError.toString : BootstrapError → String
  | .discovery message => "discovery failed: " ++ message
  | .announcement message => "self-announcement failed: " ++ message
  | .nativePeerStore message => "native peer-store update failed: " ++ message

inductive BootstrapState where
  | start
  | cacheDiscovery
  | nativeDiscovery
  | resurrectScan
  | dialing
  | isolated
  | announceSelf
  | backoff
  | connected
  deriving DecidableEq, Repr

structure BootstrapOutcome where
  state : BootstrapState
  connectedVia : Option BootstrapState
  announced : Bool
  transitions : List BootstrapState
  deriving DecidableEq, Repr

structure BootstrapPolicy where
  minimumSuccessfulPeers : Nat
  maximumParallelDials : Nat
  perDialTimeout : Duration
  rebootTtl : Duration
  deriving DecidableEq, Repr

inductive Source where
  | cache
  | native
  | registry
  deriving DecidableEq, Repr

def Source.state : Source → BootstrapState
  | .cache => .cacheDiscovery
  | .native => .nativeDiscovery
  | .registry => .resurrectScan

inductive DialOutcome where
  | handshake (connected : Bool)
  | timedOut
  deriving DecidableEq, Repr

/-- What polling the dials comes to: the next waiting dial starts, or one in flight finishes. -/
inductive DialProgress (waiting inFlight : Nat) where
  | started (h : 0 < waiting)
  | finished (index : Fin inFlight) (outcome : DialOutcome)
  deriving DecidableEq, Repr

inductive AdapterQuery where
  | connectedPeers
  | discover (source : Source) («namespace» : Namespace)
  | addVerifiedPeer (peer : PeerCandidate)
  | pollDials (waiting inFlight : Nat)
  | connect (peer : PeerCandidate) (timeout : Duration)
  | eligible
  | announce (ttl : Duration)
  deriving DecidableEq

/-- The replaceable adapters of a host. -/
abbrev Adapters : Interface where
  Query := AdapterQuery
  Answer
    | .connectedPeers => Nat
    | .discover .. => Except BootstrapError (List PeerCandidate)
    | .addVerifiedPeer _ => Except BootstrapError Unit
    | .pollDials waiting inFlight => DialProgress waiting inFlight
    | .connect .. => Unit
    | .eligible => Bool
    | .announce _ => Except BootstrapError Unit

instance : DecidableEq Adapters.Query := inferInstanceAs (DecidableEq AdapterQuery)

namespace Adapters

def connectedPeers : Prog Adapters Nat := Prog.ask (I := Adapters) .connectedPeers

def discover (source : Source) (ns : Namespace) :
    Prog Adapters (Except BootstrapError (List PeerCandidate)) :=
  Prog.ask (I := Adapters) (.discover source ns)

def addVerifiedPeer (peer : PeerCandidate) : Prog Adapters (Except BootstrapError Unit) :=
  Prog.ask (I := Adapters) (.addVerifiedPeer peer)

def pollDials (waiting inFlight : Nat) : Prog Adapters (DialProgress waiting inFlight) :=
  Prog.ask (I := Adapters) (.pollDials waiting inFlight)

/-- Begins a dial; how it ends is for `pollDials` to report. -/
def connect (peer : PeerCandidate) (timeout : Duration) : Prog Adapters Unit :=
  Prog.ask (I := Adapters) (.connect peer timeout)

def eligible : Prog Adapters Bool := Prog.ask (I := Adapters) .eligible

def announce (ttl : Duration) : Prog Adapters (Except BootstrapError Unit) :=
  Prog.ask (I := Adapters) (.announce ttl)

end Adapters

def connectedOutcome (transitions : List BootstrapState) (connectedVia : BootstrapState) :
    BootstrapOutcome where
  state := .connected
  connectedVia := some connectedVia
  announced := false
  transitions := transitions

def offerAll : List PeerCandidate → Prog Adapters Unit
  | [] => pure ()
  | peer :: rest => do
    let _ ← Adapters.addVerifiedPeer peer
    offerAll rest

/-- The dials of one stage: not yet taken from the list, taken but not begun, and begun. -/
structure Dials where
  pending : List PeerCandidate
  waiting : List PeerCandidate
  inFlight : List PeerCandidate
  deriving DecidableEq, Repr

namespace Dials

def new (peers : List PeerCandidate) : Dials := ⟨peers, [], []⟩

def refill (self : Dials) (parallel : Nat) : Dials :=
  let room := parallel - (self.waiting.length + self.inFlight.length)
  { self with pending := self.pending.drop room, waiting := self.waiting ++ self.pending.take room }

def size (self : Dials) : Nat := 2 * (self.pending.length + self.waiting.length) + self.inFlight.length

@[simp] theorem size_refill (self : Dials) (parallel : Nat) : (self.refill parallel).size = self.size := by
  simp only [refill, size, List.length_append, List.length_drop, List.length_take]
  omega

def begin (self : Dials) (h : 0 < self.waiting.length) : Dials :=
  { self with waiting := self.waiting.tail, inFlight := self.inFlight ++ [self.waiting[0]] }

def finish (self : Dials) (index : Fin self.inFlight.length) : Dials :=
  { self with inFlight := self.inFlight.eraseIdx index }

theorem size_begin (self : Dials) (h : 0 < self.waiting.length) : (self.begin h).size < self.size := by
  simp only [begin, size, List.length_append, List.length_tail, List.length_singleton]
  omega

theorem size_finish (self : Dials) (index : Fin self.inFlight.length) :
    (self.finish index).size < self.size := by
  have hIndex := index.isLt
  simp only [finish, size, List.length_eraseIdx_of_lt hIndex]
  omega

theorem size_eq_zero (self : Dials) {parallel : Nat} (hPos : 0 < parallel)
    (hWaiting : (self.refill parallel).waiting = []) (hInFlight : (self.refill parallel).inFlight = []) :
    self.size = 0 := by
  simp only [refill, List.append_eq_nil_iff] at hWaiting hInFlight
  obtain ⟨hWaiting, hPending⟩ := hWaiting
  have hLength := congrArg List.length hPending
  simp only [List.length_take, hWaiting, hInFlight, List.length_nil] at hLength
  simp only [size, hWaiting, hInFlight, List.length_nil]
  omega

end Dials

structure BootstrapController where
  policy : BootstrapPolicy
  deriving DecidableEq, Repr

namespace BootstrapController

variable (self : BootstrapController)

def connectionTarget : Nat :=
  if self.policy.minimumSuccessfulPeers = 0 then 1 else self.policy.minimumSuccessfulPeers

/-- Polls the dials until one that finished finds the node at its target, or none is left. -/
def dialLoop (dials : Dials) : Prog Adapters Bool := do
  let filled := dials.refill (max self.policy.maximumParallelDials 1)
  if filled.waiting = [] ∧ filled.inFlight = [] then pure false
  else
    match ← Adapters.pollDials filled.waiting.length filled.inFlight.length with
    | .started h =>
      Adapters.connect filled.waiting[0] self.policy.perDialTimeout
      dialLoop (filled.begin h)
    | .finished index _ =>
      let connected ← Adapters.connectedPeers
      if self.connectionTarget ≤ connected then pure true
      else dialLoop (filled.finish index)
termination_by dials.size
decreasing_by
  · rw [← Dials.size_refill dials (max self.policy.maximumParallelDials 1)]
    exact Dials.size_begin _ h
  · rw [← Dials.size_refill dials (max self.policy.maximumParallelDials 1)]
    exact Dials.size_finish _ index

def dialCandidates (peers : List PeerCandidate) (transitions : List BootstrapState) (source : BootstrapState) :
    Prog Adapters (Bool × List BootstrapState) := do
  if peers = [] then pure (false, transitions)
  else
    if ← self.dialLoop (Dials.new peers) then
      pure (true, transitions ++ [.dialing] ++ [source] ++ [.connected])
    else pure (false, transitions ++ [.dialing])

def discoverAndDial (source : Source) (ns : Namespace) (transitions : List BootstrapState) :
    Prog Adapters (Bool × List BootstrapState) := do
  match ← Adapters.discover source ns with
  | .ok peers => self.dialCandidates peers transitions source.state
  | .error _ => pure (false, transitions)

/-- The registry stage: every candidate is offered to the native store before any is dialed. -/
def scanAndDial (ns : Namespace) (transitions : List BootstrapState) :
    Prog Adapters (Bool × List BootstrapState) := do
  match ← Adapters.discover .registry ns with
  | .ok peers =>
    offerAll peers
    self.dialCandidates peers transitions Source.registry.state
  | .error _ => pure (false, transitions)

/-- Isolated promotion: an eligible node publishes itself, then every isolated node backs off. -/
def promote (transitions : List BootstrapState) : Prog Adapters (Except BootstrapError BootstrapOutcome) := do
  if ← Adapters.eligible then
    match ← Adapters.announce self.policy.rebootTtl with
    | .error error => pure (.error error)
    | .ok () => pure (.ok ⟨.backoff, none, true, transitions ++ [.announceSelf] ++ [.backoff]⟩)
  else pure (.ok ⟨.backoff, none, false, transitions ++ [.backoff]⟩)

def runCycle (ns : Namespace) : Prog Adapters (Except BootstrapError BootstrapOutcome) := do
  if self.connectionTarget ≤ (← Adapters.connectedPeers) then
    pure (.ok (connectedOutcome ([.start] ++ [.connected]) .start))
  else
    let (connected, transitions) ← self.discoverAndDial .cache ns ([.start] ++ [.cacheDiscovery])
    if connected then pure (.ok (connectedOutcome transitions .cacheDiscovery))
    else
      let (connected, transitions) ← self.discoverAndDial .native ns (transitions ++ [.nativeDiscovery])
      if connected then pure (.ok (connectedOutcome transitions .nativeDiscovery))
      else
        let (connected, transitions) ← self.scanAndDial ns (transitions ++ [.resurrectScan])
        if connected then pure (.ok (connectedOutcome transitions .resurrectScan))
        else self.promote (transitions ++ [.isolated])

end BootstrapController

end Resurrect.Bootstrap
