import Resurrect.Browser.Candidate
import Mathlib.Data.List.AList

/-! # Registry discovery for a libp2p host

`ResurrectPeerDiscovery` as a machine: each input is something the host, a timer, a
callback or the client does, each call of `scanOnce` a body that runs from one
`await` to the next. The journal keeps what has been observable so far.
-/

namespace Resurrect.Browser

structure PeerInfo (PeerId Multiaddr : Type) where
  id : PeerId
  multiaddrs : List Multiaddr
  deriving DecidableEq, Repr

/-- The parsers of libp2p, which throw on what they do not understand. -/
structure Parsers (PeerId Multiaddr : Type) where
  peerIdFromString : String → Option PeerId
  multiaddr : String → Option Multiaddr

/-- A peer keeps the endpoints that parse; without any, or with a malformed identity, it is dropped. -/
def toPeerInfo {PeerId Multiaddr : Type} (parsers : Parsers PeerId Multiaddr) (candidate : BrowserPeerCandidate) :
    Option (PeerInfo PeerId Multiaddr) :=
  match parsers.peerIdFromString candidate.peerId with
  | none => none
  | some id =>
      let multiaddrs := candidate.endpoints.filterMap parsers.multiaddr
      if multiaddrs.length = 0 then none else some ⟨id, multiaddrs⟩

abbrev CallId := Nat
abbrev TimerId := Nat

abbrev Report := Except String (List BrowserPeerCandidate)

/-- Where a body of `scanOnce` stands: awaiting the gate, awaiting the client, in its loop, or in its `catch`. -/
inductive Phase where
  | gate
  | client
  | emitting (rest : List BrowserPeerCandidate) (emitted : Nat)
  | failed

inductive Entry (PeerId Multiaddr : Type) where
  | stopped
  | collapsed (call : CallId)
  | called (call : CallId)
  | gated (call : CallId) (outcome : Except String Bool)
  | clientScan (call : CallId)
  | settled (call : CallId) (report : Report)
  | dispatched (call : CallId) (peer : PeerInfo PeerId Multiaddr)
  | returned (call : CallId) (emitted : Nat)
  | rejected (call : CallId)

inductive DiscoveryInput where
  | start
  | stop
  | tick (timer : TimerId)
  | scanOnce
  | gate (call : CallId) (outcome : Except String Bool)
  | settle (call : CallId) (report : Report)
  | emit (call : CallId)
  | onError (call : CallId) (outcome : Except String Unit)

/-- The fields of a discovery, the intervals of its host, the active bodies and the journal. -/
structure PeerDiscovery (PeerId Multiaddr : Type) where
  timer : Option TimerId
  scanning : Bool
  running : Bool
  intervals : List TimerId
  timers : TimerId
  bodies : AList fun _ : CallId => Phase
  calls : CallId
  journal : List (Entry PeerId Multiaddr)

namespace PeerDiscovery

variable {PeerId Multiaddr : Type} (parsers : Parsers PeerId Multiaddr) (self : PeerDiscovery PeerId Multiaddr)

def new : PeerDiscovery PeerId Multiaddr := ⟨none, false, false, [], 0, ∅, 0, []⟩

def isStarted : Bool := self.running

def start : PeerDiscovery PeerId Multiaddr :=
  if self.running then self
  else { self with
    running := true
    timer := some self.timers
    intervals := self.timers :: self.intervals
    timers := self.timers + 1 }

def stop : PeerDiscovery PeerId Multiaddr :=
  let stopped := { self with running := false, journal := self.journal ++ [.stopped] }
  match self.timer with
  | none => stopped
  | some timer => { stopped with intervals := self.intervals.erase timer, timer := none }

/-- Up to the call of `shouldScan`, whose outcome is an input of its own. -/
def scanOnce : PeerDiscovery PeerId Multiaddr :=
  if self.scanning then { self with calls := self.calls + 1, journal := self.journal ++ [.collapsed self.calls] }
  else { self with
    scanning := true
    bodies := self.bodies.insert self.calls .gate
    calls := self.calls + 1
    journal := self.journal ++ [.called self.calls] }

def advance (call : CallId) (phase : Phase) (entries : List (Entry PeerId Multiaddr)) :
    PeerDiscovery PeerId Multiaddr :=
  { self with bodies := self.bodies.insert call phase, journal := self.journal ++ entries }

/-- The `finally` block, and the settling of the promise. -/
def finish (call : CallId) (entries : List (Entry PeerId Multiaddr)) : PeerDiscovery PeerId Multiaddr :=
  { self with scanning := false, bodies := self.bodies.erase call, journal := self.journal ++ entries }

def gate (call : CallId) (outcome : Except String Bool) : PeerDiscovery PeerId Multiaddr :=
  match self.bodies.lookup call with
  | some .gate =>
    match outcome with
    | .ok true => self.advance call .client [.gated call outcome, .clientScan call]
    | .ok false => self.finish call [.gated call outcome, .returned call 0]
    | .error _ => self.advance call .failed [.gated call outcome]
  | _ => self

def settle (call : CallId) (report : Report) : PeerDiscovery PeerId Multiaddr :=
  match self.bodies.lookup call with
  | some .client =>
    match report with
    | .ok candidates => self.advance call (.emitting candidates 0) [.settled call report]
    | .error _ => self.advance call .failed [.settled call report]
  | _ => self

/-- One iteration of the loop over the candidates, or its end. -/
def emit (call : CallId) : PeerDiscovery PeerId Multiaddr :=
  match self.bodies.lookup call with
  | some (.emitting [] emitted) => self.finish call [.returned call emitted]
  | some (.emitting (candidate :: rest) emitted) =>
    if !self.running then self.finish call [.returned call emitted]
    else match toPeerInfo parsers candidate with
      | none => self.advance call (.emitting rest emitted) []
      | some peer => self.advance call (.emitting rest (emitted + 1)) [.dispatched call peer]
  | _ => self

def onError (call : CallId) (outcome : Except String Unit) : PeerDiscovery PeerId Multiaddr :=
  match self.bodies.lookup call with
  | some .failed =>
    match outcome with
    | .ok () => self.finish call [.returned call 0]
    | .error _ => self.finish call [.rejected call]
  | _ => self

/-- Anything may come between two awaits, and the host's listeners and callbacks between two iterations. -/
def step : DiscoveryInput → PeerDiscovery PeerId Multiaddr
  | .start => self.start
  | .stop => self.stop
  | .tick timer => if timer ∈ self.intervals then self.scanOnce else self
  | .scanOnce => self.scanOnce
  | .gate call outcome => self.gate call outcome
  | .settle call report => self.settle call report
  | .emit call => self.emit parsers call
  | .onError call outcome => self.onError call outcome

def run (inputs : List DiscoveryInput) : PeerDiscovery PeerId Multiaddr := inputs.foldl (step parsers) new

theorem run_append (inputs : List DiscoveryInput) (input : DiscoveryInput) :
    run parsers (inputs ++ [input]) = (run parsers inputs).step parsers input := List.foldl_append

end PeerDiscovery

end Resurrect.Browser
