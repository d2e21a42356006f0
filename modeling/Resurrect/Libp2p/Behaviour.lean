import Resurrect.Core.PeerRecord
import Resurrect.Foundation.AssocMap
import Mathlib.Data.Finset.Card
import Mathlib.Data.Finset.Insert

/-! # The swarm behaviour

`Behaviour` turns the dial requests of a `Connector` into swarm dials and reports
the outcome back. The connector's channel is the list `dials`; what is received
from it and sent on the oneshot channels of the callers is kept in a journal.
-/

namespace Resurrect.Libp2p

open Resurrect.Core

/-- What is used of the peer id and multiaddress types. -/
structure Addressing (PeerId Multiaddr : Type) where
  fromBytes : Bytes → Option PeerId
  parse : String → Option Multiaddr

/-- The sending half of a oneshot channel. -/
abbrev Sender := Nat

abbrev ConnectionId := Nat

inductive Rejection where
  | unsupportedRecordType
  | invalidPeerId
  | noDialableEndpoint
  deriving DecidableEq, Repr

inductive Event (PeerId : Type) where
  | dialing (peerId : PeerId)
  | connected (peerId : PeerId)
  | dialFailed (peerId : PeerId)
  | rejected (rejection : Rejection)
  deriving DecidableEq, Repr

structure DialRequest where
  peer : PeerCandidate
  outcome : Sender
  deriving DecidableEq, Repr

/-- The options of one dial attempt; the connection id is drawn when they are built. -/
structure DialOpts (PeerId Multiaddr : Type) where
  peerId : PeerId
  addresses : List Multiaddr
  connectionId : ConnectionId
  deriving DecidableEq, Repr

inductive ToSwarm (PeerId Multiaddr : Type) where
  | dial (opts : DialOpts PeerId Multiaddr)
  | generateEvent (event : Event PeerId)
  deriving DecidableEq, Repr

inductive FromSwarm (PeerId : Type) where
  | connectionEstablished (peerId : PeerId) (connectionId : ConnectionId)
  | connectionClosed (peerId : PeerId) (connectionId : ConnectionId) (remainingEstablished : Nat)
  | dialFailure (peerId : Option PeerId) (connectionId : ConnectionId)
  | other
  deriving DecidableEq, Repr

/-- An answer to a caller, with the connectivity that could be read when it was sent. -/
structure Answered (PeerId : Type) where
  sender : Sender
  dialed : Bool
  connected : Finset PeerId
  connectivity : Nat
  deriving DecidableEq

/-- A dial handed to the swarm on behalf of a caller. -/
structure Attempt (PeerId : Type) where
  sender : Sender
  peerId : PeerId
  connectionId : ConnectionId
  deriving DecidableEq, Repr

structure Journal (PeerId : Type) where
  taken : List DialRequest
  answers : List (Answered PeerId)
  attempts : List (Attempt PeerId)

structure Behaviour (PeerId Multiaddr : Type) where
  dials : List DialRequest
  waiters : AList fun _ : PeerId => List Sender
  connected : Finset PeerId
  connectivity : Nat
  queue : List (ToSwarm PeerId Multiaddr)
  journal : Journal PeerId

namespace Behaviour

variable {PeerId Multiaddr : Type}

def new : Behaviour PeerId Multiaddr := ⟨[], ∅, ∅, 0, [], ⟨[], [], []⟩⟩

def connectedPeers (self : Behaviour PeerId Multiaddr) : Nat := self.connected.card

def send (self : Behaviour PeerId Multiaddr) (dialed : Bool) (waiter : Sender) : Behaviour PeerId Multiaddr :=
  { self with journal := { self.journal with
      answers := self.journal.answers ++ [⟨waiter, dialed, self.connected, self.connectivity⟩] } }

def receive (self : Behaviour PeerId Multiaddr) (request : DialRequest) (rest : List DialRequest) :
    Behaviour PeerId Multiaddr :=
  { self with
    dials := rest
    journal := { self.journal with taken := self.journal.taken ++ [request] } }

def generate (self : Behaviour PeerId Multiaddr) (event : Event PeerId) : Behaviour PeerId Multiaddr :=
  { self with queue := self.queue ++ [.generateEvent event] }

def reject (self : Behaviour PeerId Multiaddr) (request : DialRequest) (rejection : Rejection) :
    Behaviour PeerId Multiaddr :=
  (self.send false request.outcome).generate (.rejected rejection)

variable [DecidableEq PeerId]

def resolve (self : Behaviour PeerId Multiaddr) (peerId : PeerId) (dialed : Bool) : Behaviour PeerId Multiaddr :=
  match self.waiters.lookup peerId with
  | none => self
  | some waiters =>
    waiters.foldl (fun behaviour waiter => behaviour.send dialed waiter)
      { self with waiters := self.waiters.erase peerId }

def startDial (self : Behaviour PeerId Multiaddr) (request : DialRequest) (opts : DialOpts PeerId Multiaddr) :
    Behaviour PeerId Multiaddr :=
  { self with
    waiters := self.waiters.insert opts.peerId ((self.waiters.lookup opts.peerId).getD [] ++ [request.outcome])
    queue := self.queue ++ [.dial opts, .generateEvent (.dialing opts.peerId)]
    journal := { self.journal with
      attempts := self.journal.attempts ++ [⟨request.outcome, opts.peerId, opts.connectionId⟩] } }

/-- Publishes the connectivity of a new peer, before its waiters are woken. -/
def arrive (self : Behaviour PeerId Multiaddr) (peerId : PeerId) : Behaviour PeerId Multiaddr :=
  if peerId ∈ self.connected then self
  else
    { self with
      connected := insert peerId self.connected
      connectivity := (insert peerId self.connected).card }

def onSwarmEvent (self : Behaviour PeerId Multiaddr) : FromSwarm PeerId → Behaviour PeerId Multiaddr
  | .connectionEstablished peerId _ =>
    if peerId ∈ (self.arrive peerId).waiters then
      ((self.arrive peerId).resolve peerId true).generate (.connected peerId)
    else self.arrive peerId
  | .connectionClosed peerId _ remainingEstablished =>
    if remainingEstablished = 0 ∧ peerId ∈ self.connected then
      { self with
        connected := self.connected.erase peerId
        connectivity := (self.connected.erase peerId).card }
    else self
  | .dialFailure (some peerId) _ =>
    if peerId ∈ self.waiters then (self.resolve peerId false).generate (.dialFailed peerId) else self
  | .dialFailure none _ => self
  | .other => self

section Addresses

variable (addressing : Addressing PeerId Multiaddr)

def accept (self : Behaviour PeerId Multiaddr) (request : DialRequest) (connectionId : ConnectionId) :
    Behaviour PeerId Multiaddr :=
  if request.peer.recordType ≠ recordTypeLibp2p then self.reject request .unsupportedRecordType
  else match addressing.fromBytes request.peer.peerId with
    | none => self.reject request .invalidPeerId
    | some peerId =>
      if peerId ∈ self.connected then self.send true request.outcome
      else match request.peer.endpoints.filterMap fun endpoint => addressing.parse endpoint.address with
        | [] => self.reject request .noDialableEndpoint
        | addresses => self.startDial request ⟨peerId, addresses, connectionId⟩

/-- The loop of `poll`, for as many requests as the channel hands out. -/
def drain (connectionId : ConnectionId) : Nat → Behaviour PeerId Multiaddr →
    Option (ToSwarm PeerId Multiaddr) × Behaviour PeerId Multiaddr
  | 0, self => (none, self)
  | budget + 1, self =>
    match self.dials with
    | [] => (none, self)
    | request :: rest =>
      let accepted := (self.receive request rest).accept addressing request connectionId
      match accepted.queue with
      | action :: queue => (some action, { accepted with queue })
      | [] => drain connectionId budget accepted

def poll (self : Behaviour PeerId Multiaddr) (budget : Nat) (connectionId : ConnectionId) :
    Option (ToSwarm PeerId Multiaddr) × Behaviour PeerId Multiaddr :=
  match self.queue with
  | action :: queue => (some action, { self with queue })
  | [] => self.drain addressing connectionId budget

/-- Why a candidate is rejected before any dial. -/
def Undialable (peer : PeerCandidate) : Prop :=
  peer.recordType ≠ recordTypeLibp2p ∨ addressing.fromBytes peer.peerId = none ∨
    ∀ endpoint ∈ peer.endpoints, addressing.parse endpoint.address = none

variable {addressing} {connectionId : ConnectionId}

theorem accept_cases (self : Behaviour PeerId Multiaddr) (request : DialRequest) (connectionId : ConnectionId) :
    (Undialable addressing request.peer ∧ ∃ rejection,
      self.accept addressing request connectionId = self.reject request rejection) ∨
    (∃ peerId ∈ self.connected, addressing.fromBytes request.peer.peerId = some peerId ∧
      self.accept addressing request connectionId = self.send true request.outcome) ∨
    ∃ opts : DialOpts PeerId Multiaddr, opts.peerId ∉ self.connected ∧ opts.connectionId = connectionId ∧
      addressing.fromBytes request.peer.peerId = some opts.peerId ∧
      self.accept addressing request connectionId = self.startDial request opts := by
  rw [accept]
  split
  · rename_i hType
    exact .inl ⟨.inl hType, _, rfl⟩
  split
  · rename_i hBytes
    exact .inl ⟨.inr (.inl hBytes), _, rfl⟩
  rename_i peerId hBytes
  split
  · rename_i hConnected
    exact .inr (.inl ⟨peerId, hConnected, hBytes, rfl⟩)
  rename_i hAbsent
  split
  · rename_i hNil
    exact .inl ⟨.inr (.inr (List.filterMap_eq_nil_iff.mp hNil)), _, rfl⟩
  · exact .inr (.inr ⟨⟨peerId, _, connectionId⟩, hAbsent, rfl, hBytes, rfl⟩)

/-- What each accepted request and each pop of the queue keeps, a drain keeps. -/
theorem drain_preserves {P : Behaviour PeerId Multiaddr → Prop}
    (hAccept : ∀ self request rest, P self → self.queue = [] → self.dials = request :: rest →
      P ((self.receive request rest).accept addressing request connectionId))
    (hPop : ∀ self action queue, P self → self.queue = action :: queue → P { self with queue })
    (budget : Nat) (self : Behaviour PeerId Multiaddr) (hQueue : self.queue = []) (h : P self) :
    P (self.drain addressing connectionId budget).2 := by
  induction budget generalizing self with
  | zero => exact h
  | succ budget ih =>
    rw [drain]
    split
    · exact h
    · rename_i request rest hDials
      have hAccepted := hAccept self request rest h hQueue hDials
      dsimp only
      split
      · rename_i action queue hAction
        exact hPop _ action queue hAccepted hAction
      · rename_i hEmpty
        exact ih _ hEmpty hAccepted

theorem poll_preserves {P : Behaviour PeerId Multiaddr → Prop}
    (hAccept : ∀ self request rest, P self → self.queue = [] → self.dials = request :: rest →
      P ((self.receive request rest).accept addressing request connectionId))
    (hPop : ∀ self action queue, P self → self.queue = action :: queue → P { self with queue })
    (budget : Nat) {self : Behaviour PeerId Multiaddr} (h : P self) :
    P (self.poll addressing budget connectionId).2 := by
  rw [poll]
  split
  · rename_i action queue hQueue
    exact hPop self action queue h hQueue
  · rename_i hQueue
    exact drain_preserves hAccept hPop budget self hQueue h

end Addresses

end Behaviour

end Resurrect.Libp2p
