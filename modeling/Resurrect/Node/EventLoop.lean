import Resurrect.Libp2p.Behaviour
import Mathlib.Data.Multiset.Sort
import Mathlib.Data.String.Basic

/-! # The host event loop

`EventLoop` owns the swarm of the native host. Its handles send it commands; the
swarm reports events. What is taken from the command channel and sent on the
oneshot channels of dialing callers is kept in a journal. The answer of
`swarm.dial` is given to the command that asks for it.
-/

namespace Resurrect.Node

open Resurrect.Core Libp2p

/-- Peer ids and multiaddresses with the encodings the host writes. -/
structure HostAddressing (PeerId Multiaddr : Type) extends Addressing PeerId Multiaddr where
  toBytes : PeerId → Bytes
  peerToString : PeerId → String
  addressToString : Multiaddr → String

structure HostStatus where
  peerId : String
  listenAddresses : List String
  connectedPeers : List String
  nativeDiscoveredPeers : Nat
  deriving DecidableEq, Repr

inductive HostError where
  | build (message : String)
  | noListener
  | invalidConfiguredPeer (address : String)
  | listenTimeout
  | stopped
  | unsupportedRecordType (recordType : UInt32)
  | invalidPeerId
  | noDialableEndpoint
  | dial (message : String)
  deriving DecidableEq, Repr

def HostError.toString : HostError → String
  | .build message => "failed to build libp2p host: " ++ message
  | .noListener => "no libp2p listener could be started"
  | .invalidConfiguredPeer address => "configured peer must end in /p2p/<peer-id>: " ++ address
  | .listenTimeout => "timed out waiting for libp2p listener"
  | .stopped => "libp2p host stopped"
  | .unsupportedRecordType recordType =>
    "record type " ++ ToString.toString recordType ++ " cannot be dialed by the libp2p host"
  | .invalidPeerId => "candidate contains an invalid libp2p peer ID"
  | .noDialableEndpoint => "candidate has no dialable libp2p endpoint"
  | .dial message => "libp2p dial failed: " ++ message

inductive Command where
  | dial (peer : PeerCandidate) (sender : Sender)
  | addVerified (peer : PeerCandidate)
  | nativeCandidates (sender : Sender)
  | pruneDialWaiters
  | shutdown (sender : Sender)
  deriving DecidableEq, Repr

inductive SwarmEvent (PeerId Multiaddr : Type) where
  | newListenAddr (address : Multiaddr)
  | expiredListenAddr (address : Multiaddr)
  | connectionEstablished (peerId : PeerId) (connectionId : ConnectionId)
  | connectionClosed (peerId : PeerId) (connectionId : ConnectionId) (numEstablished : Nat)
  | outgoingConnectionError (peerId : Option PeerId) (connectionId : ConnectionId) (error : String)
  | mdnsDiscovered (peers : List (PeerId × Multiaddr))
  | mdnsExpired (peers : List (PeerId × Multiaddr))
  | identifyReceived (peerId : PeerId) (listenAddrs : List Multiaddr)
  | other
  deriving DecidableEq, Repr

/-- An answer to a dialing caller, with the status that could be read when it was sent. -/
structure HostAnswer (PeerId : Type) where
  sender : Sender
  result : Except HostError Unit
  connected : Finset PeerId
  status : HostStatus

structure HostJournal (PeerId : Type) where
  taken : List DialRequest
  answers : List (HostAnswer PeerId)
  pruned : Finset Sender
  replies : List (Sender × List PeerCandidate)

structure EventLoop (PeerId Multiaddr : Type) where
  localPeerId : PeerId
  commands : List Command
  status : HostStatus
  connected : Finset PeerId
  native : AList fun _ : PeerId => List Multiaddr
  verified : AList fun _ : PeerId => PeerCandidate
  pending : AList fun _ : PeerId => List Sender
  listenAddresses : Finset Multiaddr
  journal : HostJournal PeerId

namespace EventLoop

variable {PeerId Multiaddr : Type}

def send (self : EventLoop PeerId Multiaddr) (result : Except HostError Unit) (sender : Sender) :
    EventLoop PeerId Multiaddr :=
  { self with journal := { self.journal with
      answers := self.journal.answers ++ [⟨sender, result, self.connected, self.status⟩] } }

def receive (self : EventLoop PeerId Multiaddr) (request : DialRequest) : EventLoop PeerId Multiaddr :=
  { self with journal := { self.journal with taken := self.journal.taken ++ [request] } }

def sorted (names : Multiset String) : List String := names.sort (· ≤ ·)

variable [DecidableEq PeerId] [DecidableEq Multiaddr]

def addNative (native : AList fun _ : PeerId => List Multiaddr) (peer : PeerId) (addresses : List Multiaddr) :
    AList fun _ : PeerId => List Multiaddr :=
  native.insert peer (addresses.foldl (fun held address => held.insert address) ((native.lookup peer).getD []))

def removeNative (native : AList fun _ : PeerId => List Multiaddr) (peer : PeerId) (address : Multiaddr) :
    AList fun _ : PeerId => List Multiaddr :=
  match native.lookup peer with
  | none => native
  | some addresses =>
    if addresses.erase address = [] then native.erase peer else native.insert peer (addresses.erase address)

/-- Sends the answer of a resolved dial to all waiters of the peer. -/
def complete (self : EventLoop PeerId Multiaddr) (peerId : PeerId) (result : Except HostError Unit) :
    EventLoop PeerId Multiaddr :=
  match self.pending.lookup peerId with
  | none => self
  | some waiters =>
    waiters.foldl (fun eventLoop waiter => eventLoop.send result waiter)
      { self with pending := self.pending.erase peerId }

/-- The waiters of a dial whose callers still listen, if there are any. -/
def openWaiters (closed : Finset Sender) (waiters : List Sender) : Option (List Sender) :=
  match waiters.filter fun waiter => waiter ∉ closed with
  | [] => none
  | kept => some kept

def pruneDialWaiters (self : EventLoop PeerId Multiaddr) (closed : Finset Sender) : EventLoop PeerId Multiaddr :=
  { self with
    pending := AssocMap.mapMaybe self.pending (openWaiters closed)
    journal := { self.journal with pruned := self.journal.pruned ∪
      (self.pending.entries.flatMap fun entry => entry.2).toFinset.filter (· ∈ closed) } }

variable (addressing : HostAddressing PeerId Multiaddr)

def publishStatus (self : EventLoop PeerId Multiaddr) : EventLoop PeerId Multiaddr :=
  { self with status := {
      peerId := addressing.peerToString self.localPeerId
      listenAddresses := sorted (self.listenAddresses.val.map addressing.addressToString)
      connectedPeers := sorted (self.connected.val.map addressing.peerToString)
      nativeDiscoveredPeers := self.native.keys.length } }

def nativeCandidates (self : EventLoop PeerId Multiaddr) : List PeerCandidate :=
  self.native.entries.map fun entry =>
    { recordType := recordTypeLibp2p
      peerId := addressing.toBytes entry.1
      sequence := 0
      endpoints := entry.2.map fun address => ⟨addressing.addressToString address⟩
      rawSignedRecord := []
      expiresAt := 0xffffffffffffffff
      source := .native
      announcementBlock := none
      announcementLogIndex := none }

/-- An event loop before its first event; `commands` is the receiving half of the channel. -/
def new (localPeerId : PeerId) (configuredPeers : List (PeerId × Multiaddr)) : EventLoop PeerId Multiaddr where
  localPeerId
  commands := []
  status := ⟨addressing.peerToString localPeerId, [], [], 0⟩
  connected := ∅
  native := configuredPeers.foldl (fun native peer => addNative native peer.1 [peer.2]) ∅
  verified := ∅
  pending := ∅
  listenAddresses := ∅
  journal := ⟨[], [], ∅, []⟩

/-- `dialed` is what `swarm.dial` answers, should it be asked. -/
def dial (self : EventLoop PeerId Multiaddr) (peer : PeerCandidate) (sender : Sender)
    (dialed : Except String Unit) : EventLoop PeerId Multiaddr :=
  if peer.recordType ≠ recordTypeLibp2p then
    self.send (.error (.unsupportedRecordType peer.recordType)) sender
  else match addressing.fromBytes peer.peerId with
    | none => self.send (.error .invalidPeerId) sender
    | some peerId =>
      if peerId ∈ self.connected then self.send (.ok ()) sender
      else match peer.endpoints.filterMap fun endpoint => addressing.parse endpoint.address with
        | [] => self.send (.error .noDialableEndpoint) sender
        | _ :: _ =>
          match dialed with
          | .ok () =>
            { self with pending := self.pending.insert peerId ((self.pending.lookup peerId).getD [] ++ [sender]) }
          | .error error => self.send (.error (.dial error)) sender

def handleCommand (self : EventLoop PeerId Multiaddr) (closed : Finset Sender) (dialed : Except String Unit) :
    Command → EventLoop PeerId Multiaddr
  | .dial peer sender => (self.receive ⟨peer, sender⟩).dial addressing peer sender dialed
  | .addVerified peer =>
    let self := match addressing.fromBytes peer.peerId with
      | none => self
      | some peerId => { self with verified := self.verified.insert peerId peer }
    self.publishStatus addressing
  | .nativeCandidates sender =>
    { self with journal := { self.journal with
        replies := self.journal.replies ++ [(sender, self.nativeCandidates addressing)] } }
  | .pruneDialWaiters => self.pruneDialWaiters closed
  | .shutdown _ => self

def handleSwarm (self : EventLoop PeerId Multiaddr) : SwarmEvent PeerId Multiaddr → EventLoop PeerId Multiaddr
  | .newListenAddr address =>
    publishStatus addressing { self with listenAddresses := insert address self.listenAddresses }
  | .expiredListenAddr address =>
    publishStatus addressing { self with listenAddresses := self.listenAddresses.erase address }
  | .connectionEstablished peerId _ =>
    complete (publishStatus addressing { self with connected := insert peerId self.connected }) peerId (.ok ())
  | .connectionClosed peerId _ numEstablished =>
    if numEstablished = 0 then publishStatus addressing { self with connected := self.connected.erase peerId }
    else self
  | .outgoingConnectionError (some peerId) _ error => self.complete peerId (.error (.dial error))
  | .outgoingConnectionError none _ _ => self
  | .mdnsDiscovered peers =>
    publishStatus addressing
      { self with native := peers.foldl (fun native peer => addNative native peer.1 [peer.2]) self.native }
  | .mdnsExpired peers =>
    publishStatus addressing
      { self with native := peers.foldl (fun native peer => removeNative native peer.1 peer.2) self.native }
  | .identifyReceived peerId listenAddrs =>
    publishStatus addressing { self with native := addNative self.native peerId listenAddrs }
  | .other => self

end EventLoop

end Resurrect.Node
