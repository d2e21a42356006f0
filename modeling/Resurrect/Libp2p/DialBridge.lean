import Resurrect.Foundation.Rendezvous
import Resurrect.Libp2p.Behaviour

/-! # The connector and its behaviour

A `Bridge` is a connector with the behaviour it feeds. Callers send requests and
time out, the swarm polls and reports events; the order of these is free. The
behaviour is a `Rendezvous` board: peers are keys, oneshot senders are tickets.
-/

namespace Resurrect.Libp2p

open Resurrect.Core Rendezvous

inductive Input (PeerId : Type) where
  | connect (peer : PeerCandidate)
  | timeout (sender : Sender)
  | poll (budget : Nat)
  | swarm (event : FromSwarm PeerId)
  deriving DecidableEq, Repr

/-- A connector and its behaviour, with the calls that have ended and the outcomes
the swarm has reported. -/
structure Bridge (PeerId Multiaddr : Type) where
  behaviour : Behaviour PeerId Multiaddr
  capacity : Nat
  calls : Sender
  connections : ConnectionId
  expired : Finset Sender
  failures : List ConnectionId
  establishments : List (PeerId × ConnectionId)

namespace Bridge

variable {PeerId Multiaddr : Type}

/-- Creates the swarm half and the controller half of the integration. -/
def connector (queueDepth : Nat) : Bridge PeerId Multiaddr :=
  ⟨.new, max queueDepth 1, 0, 0, ∅, [], []⟩

/-- A call sends its request as soon as the channel has room. -/
def connect (self : Bridge PeerId Multiaddr) (peer : PeerCandidate) : Bridge PeerId Multiaddr :=
  if self.behaviour.dials.length < self.capacity then
    { self with
      behaviour := { self.behaviour with dials := self.behaviour.dials ++ [⟨peer, self.calls⟩] }
      calls := self.calls + 1 }
  else self

def report (self : Bridge PeerId Multiaddr) : FromSwarm PeerId → Bridge PeerId Multiaddr
  | .connectionEstablished peerId connectionId =>
    { self with
      connections := max self.connections (connectionId + 1)
      establishments := (peerId, connectionId) :: self.establishments }
  | .connectionClosed _ connectionId _ => { self with connections := max self.connections (connectionId + 1) }
  | .dialFailure _ connectionId =>
    { self with
      connections := max self.connections (connectionId + 1)
      failures := connectionId :: self.failures }
  | .other => self

variable [DecidableEq PeerId] (addressing : Addressing PeerId Multiaddr)

def step (self : Bridge PeerId Multiaddr) : Input PeerId → Bridge PeerId Multiaddr
  | .connect peer => self.connect peer
  | .timeout sender => { self with expired := insert sender self.expired }
  | .poll budget =>
    { self with
      behaviour := (self.behaviour.poll addressing budget self.connections).2
      connections := self.connections + 1 }
  | .swarm event => { self.report event with behaviour := self.behaviour.onSwarmEvent event }

def run (queueDepth : Nat) (inputs : List (Input PeerId)) : Bridge PeerId Multiaddr :=
  inputs.foldl (step addressing) (connector queueDepth)

theorem run_append (queueDepth : Nat) (inputs : List (Input PeerId)) (input : Input PeerId) :
    run addressing queueDepth (inputs ++ [input]) = (run addressing queueDepth inputs).step addressing input :=
  List.foldl_append

end Bridge

section Board

variable {PeerId Multiaddr : Type}

/-- A request as a ticket under the peer that it names. -/
def ticket (addressing : Addressing PeerId Multiaddr) (request : DialRequest) : Sender × Option PeerId :=
  (request.outcome, addressing.fromBytes request.peer.peerId)

def Answered.answer (self : Answered PeerId) : Answer PeerId Sender Nat :=
  ⟨self.sender, self.dialed, self.connected, self.connectivity⟩

/-- The published count is the number of connected peers. -/
def Counts (published : Nat) (connected : Finset PeerId) : Prop := published = connected.card

namespace Behaviour

variable (addressing : Addressing PeerId Multiaddr)

def board (self : Behaviour PeerId Multiaddr) (expired : Finset Sender) : Board PeerId Sender Nat where
  present := self.connected
  published := self.connectivity
  waiters := self.waiters
  taken := self.journal.taken.map (ticket addressing)
  answers := self.journal.answers.map Answered.answer
  departed := expired
  pruned := ∅

variable {addressing} {self : Behaviour PeerId Multiaddr} {expired : Finset Sender}
variable {request : DialRequest} {rest : List DialRequest}

theorem foldl_send (dialed : Bool) (waiters : List Sender) (self : Behaviour PeerId Multiaddr) :
    waiters.foldl (fun behaviour waiter => behaviour.send dialed waiter) self =
      { self with journal := { self.journal with
          answers := self.journal.answers ++
            waiters.map fun waiter => ⟨waiter, dialed, self.connected, self.connectivity⟩ } } := by
  induction waiters generalizing self with
  | nil => simp
  | cons waiter waiters ih =>
    rw [List.foldl_cons, ih]
    simp [send]

@[simp] theorem board_generate (event : Event PeerId) :
    (self.generate event).board addressing expired = self.board addressing expired := rfl

theorem board_send (dialed : Bool) (waiter : Sender) : (self.send dialed waiter).board addressing expired =
    (self.board addressing expired).answer [waiter] dialed := by
  rw [board, send, List.map_append]
  rfl

theorem board_receive (request : DialRequest) (rest : List DialRequest) :
    (self.receive request rest).board addressing expired =
      (self.board addressing expired).take request.outcome (addressing.fromBytes request.peer.peerId) := by
  rw [board, receive, List.map_append]
  rfl

theorem taken_board : (self.board addressing expired).taken.map Prod.fst =
    self.journal.taken.map DialRequest.outcome := by
  rw [board, List.map_map]
  rfl

/-- The connected set is published with its count. -/
def publish (self : Behaviour PeerId Multiaddr) (connected : Finset PeerId) : Behaviour PeerId Multiaddr :=
  { self with connected, connectivity := connected.card }

variable [DecidableEq PeerId]

theorem board_startDial (opts : DialOpts PeerId Multiaddr) :
    (self.startDial request opts).board addressing expired =
      (self.board addressing expired).wait request.outcome opts.peerId := rfl

theorem resolve_of_lookup {peerId : PeerId} {waiters : List Sender}
    (hLookup : self.waiters.lookup peerId = some waiters) (dialed : Bool) : self.resolve peerId dialed =
      { self with
        waiters := self.waiters.erase peerId
        journal := { self.journal with
          answers := self.journal.answers ++
            waiters.map fun waiter => ⟨waiter, dialed, self.connected, self.connectivity⟩ } } := by
  rw [resolve, hLookup]
  exact foldl_send dialed waiters _

theorem board_resolve {peerId : PeerId} (hMem : peerId ∈ self.waiters) (dialed : Bool) :
    (self.resolve peerId dialed).board addressing expired =
      (self.board addressing expired).release peerId dialed := by
  obtain ⟨waiters, hLookup⟩ := Option.isSome_iff_exists.mp (AList.lookup_isSome.mpr hMem)
  have hWaiting : (self.board addressing expired).waiting peerId = waiters := by
    rw [Board.waiting, board, hLookup, Option.getD_some]
  rw [resolve_of_lookup hLookup, Board.release, hWaiting, Board.answer, board, List.map_append, List.map_map]
  rfl

theorem requests_resolve (peerId : PeerId) (dialed : Bool) :
    (self.resolve peerId dialed).journal.taken ++ (self.resolve peerId dialed).dials =
      self.journal.taken ++ self.dials := by
  rw [resolve]
  split
  · rfl
  · rw [foldl_send]

theorem connected_resolve (peerId : PeerId) (dialed : Bool) :
    (self.resolve peerId dialed).connected = self.connected := by
  rw [resolve]
  split
  · rfl
  · rw [foldl_send]

theorem connected_accept (request : DialRequest) (connectionId : ConnectionId) :
    (self.accept addressing request connectionId).connected = self.connected := by
  obtain ⟨-, rejection, hEq⟩ | ⟨peerId, -, -, hEq⟩ | ⟨opts, -, -, -, hEq⟩ := accept_cases self request connectionId
  all_goals
    rw [hEq]
    rfl

theorem connected_poll (budget : Nat) (connectionId : ConnectionId) :
    (self.poll addressing budget connectionId).2.connected = self.connected := by
  apply @poll_preserves _ _ _ addressing connectionId fun behaviour => behaviour.connected = self.connected
  · intro behaviour request rest h _ _
    exact (connected_accept request connectionId).trans h
  · intro behaviour action queue h _
    exact h
  · rfl

theorem connected_wake (peerId : PeerId) (dialed : Bool) (event : Event PeerId) :
    (if peerId ∈ self.waiters then (self.resolve peerId dialed).generate event else self).connected =
      self.connected := by
  split
  · exact connected_resolve peerId dialed
  · rfl

theorem connected_onSwarmEvent (event : FromSwarm PeerId) : (self.onSwarmEvent event).connected =
    match event with
    | .connectionEstablished peerId _ => insert peerId self.connected
    | .connectionClosed peerId _ remaining => if remaining = 0 then self.connected.erase peerId else self.connected
    | _ => self.connected := by
  cases event with
  | connectionEstablished peerId connectionId =>
    have hInsert : (self.arrive peerId).connected = insert peerId self.connected := by
      rw [arrive]
      split
      · rename_i hMem
        exact (Finset.insert_eq_of_mem hMem).symm
      · rfl
    exact (connected_wake peerId true (.connected peerId)).trans hInsert
  | connectionClosed peerId connectionId remaining =>
    rw [onSwarmEvent]
    by_cases hZero : remaining = 0
    · by_cases hMem : peerId ∈ self.connected
      · simp only [hZero, hMem, and_self, if_true]
      · simp only [hZero, hMem, and_false, if_true, if_false, Finset.erase_eq_of_notMem, not_false_eq_true]
    · simp only [hZero, false_and, if_false]
  | dialFailure peerId connectionId =>
    cases peerId with
    | none => rfl
    | some peerId => exact connected_wake peerId false (.dialFailed peerId)
  | other => rfl

variable (addressing) in
/-- A behaviour that has been sent the calls below `calls`, of which `expired` have ended. -/
structure Sound (calls : Sender) (expired : Finset Sender) (behaviour : Behaviour PeerId Multiaddr) : Prop where
  consistent : Consistent Counts (behaviour.board addressing expired)
  numbered : (behaviour.journal.taken ++ behaviour.dials).map DialRequest.outcome = List.range calls

variable {calls : Sender}

theorem Sound.fresh (h : self.Sound addressing calls expired) (hDials : self.dials = request :: rest) :
    request.outcome ∉ (self.board addressing expired).taken.map Prod.fst := by
  have hNodup : ((self.journal.taken ++ self.dials).map DialRequest.outcome).Nodup := h.numbered ▸ List.nodup_range
  rw [hDials, List.map_append, List.map_cons] at hNodup
  rw [taken_board]
  exact fun hMem => List.disjoint_of_nodup_append hNodup hMem List.mem_cons_self

theorem numbered_receive (h : self.Sound addressing calls expired) (hDials : self.dials = request :: rest) :
    ((self.receive request rest).journal.taken ++ (self.receive request rest).dials).map DialRequest.outcome =
      List.range calls := by
  rw [← h.numbered, hDials, receive, List.append_assoc]
  rfl

theorem Sound.accept (h : self.Sound addressing calls expired) (hDials : self.dials = request :: rest)
    (connectionId : ConnectionId) :
    ((self.receive request rest).accept addressing request connectionId).Sound addressing calls expired := by
  have hFresh := h.fresh hDials
  have hNumbered := numbered_receive h hDials
  have hBoard := @board_receive _ _ addressing self expired request rest
  obtain ⟨-, rejection, hEq⟩ | ⟨peerId, hConnected, hBytes, hEq⟩ | ⟨opts, hAbsent, -, hBytes, hEq⟩ :=
    accept_cases (self.receive request rest) request connectionId
  · rw [hEq]
    refine ⟨?_, hNumbered⟩
    rw [reject, board_generate, board_send, hBoard]
    exact (Step.refuse hFresh).consistent h.consistent
  · rw [hEq]
    refine ⟨?_, hNumbered⟩
    rw [board_send, hBoard, hBytes]
    exact (Step.confirm hFresh hConnected).consistent h.consistent
  · rw [hEq]
    refine ⟨?_, hNumbered⟩
    rw [board_startDial, hBoard, hBytes]
    exact (Step.wait hFresh hAbsent).consistent h.consistent

theorem Sound.poll (h : self.Sound addressing calls expired) (budget : Nat) (connectionId : ConnectionId) :
    (self.poll addressing budget connectionId).2.Sound addressing calls expired := by
  apply poll_preserves _ _ budget h
  · intro self request rest h _ hDials
    exact h.accept hDials connectionId
  · intro self action queue h _
    exact ⟨h.consistent, h.numbered⟩

theorem publish_self (h : self.Sound addressing calls expired) : self.publish self.connected = self := by
  have hCount : self.connectivity = self.connected.card := h.consistent.shown_present
  rw [publish, ← hCount]

theorem arrive_eq (h : self.Sound addressing calls expired) (peerId : PeerId) :
    self.arrive peerId = self.publish (insert peerId self.connected) := by
  rw [arrive]
  split
  · rename_i hMem
    rw [Finset.insert_eq_of_mem hMem, publish_self h]
  · rfl

theorem Sound.established (h : self.Sound addressing calls expired) (peerId : PeerId) (connectionId : ConnectionId) :
    (self.onSwarmEvent (.connectionEstablished peerId connectionId)).Sound addressing calls expired := by
  have hCounts : Counts (insert peerId self.connected).card (insert peerId self.connected) := rfl
  rw [onSwarmEvent, arrive_eq h]
  split
  · rename_i hMem
    refine ⟨?_, ?_⟩
    · have hWaits : peerId ∈ (self.publish (insert peerId self.connected)).waiters := hMem
      rw [board_generate, board_resolve hWaits]
      exact (Step.enter hCounts).consistent h.consistent
    · exact (congrArg _ (requests_resolve peerId true)).trans h.numbered
  · rename_i hNone
    refine ⟨h.consistent.publish hCounts ?_, h.numbered⟩
    intro other hOther
    obtain rfl | hOther := Finset.mem_insert.mp hOther
    · exact hNone
    · exact h.consistent.disjoint other hOther

theorem Sound.dialFailure (h : self.Sound addressing calls expired) (peerId : Option PeerId)
    (connectionId : ConnectionId) :
    (self.onSwarmEvent (.dialFailure peerId connectionId)).Sound addressing calls expired := by
  cases peerId with
  | none => exact h
  | some peerId =>
    rw [onSwarmEvent]
    split
    · rename_i hMem
      refine ⟨?_, ?_⟩
      · rw [board_generate, board_resolve hMem]
        exact Step.fail.consistent h.consistent
      · exact (congrArg _ (requests_resolve peerId false)).trans h.numbered
    · exact h

theorem Sound.closed (h : self.Sound addressing calls expired) (peerId : PeerId) (connectionId : ConnectionId)
    (remaining : Nat) :
    (self.onSwarmEvent (.connectionClosed peerId connectionId remaining)).Sound addressing calls expired := by
  have hCounts : Counts (self.connected.erase peerId).card (self.connected.erase peerId) := rfl
  rw [onSwarmEvent]
  split
  · exact ⟨(Step.leave hCounts).consistent h.consistent, h.numbered⟩
  · exact h

theorem Sound.onSwarmEvent (h : self.Sound addressing calls expired) (event : FromSwarm PeerId) :
    (self.onSwarmEvent event).Sound addressing calls expired := by
  cases event with
  | connectionEstablished peerId connectionId => exact h.established peerId connectionId
  | connectionClosed peerId connectionId remaining => exact h.closed peerId connectionId remaining
  | dialFailure peerId connectionId => exact h.dialFailure peerId connectionId
  | other => exact h

end Behaviour

end Board

section Runs

variable {PeerId Multiaddr : Type} [DecidableEq PeerId]

def Input.link : Input PeerId → Option (LinkEvent PeerId)
  | .swarm (.connectionEstablished peerId _) => some (.opened peerId)
  | .swarm (.connectionClosed peerId _ remainingEstablished) => some (.closed peerId remainingEstablished)
  | _ => none

namespace Bridge

variable {addressing : Addressing PeerId Multiaddr} {self : Bridge PeerId Multiaddr} {queueDepth : Nat}

variable (addressing) in
def Sound (bridge : Bridge PeerId Multiaddr) : Prop :=
  bridge.behaviour.Sound addressing bridge.calls bridge.expired

theorem sound_connector : (connector queueDepth : Bridge PeerId Multiaddr).Sound addressing := by
  refine ⟨?_, rfl⟩
  constructor
  · rfl
  all_goals simp [connector, Behaviour.new, Behaviour.board, Board.waiting]

theorem Sound.connect (h : self.Sound addressing) (peer : PeerCandidate) : (self.connect peer).Sound addressing := by
  rw [Bridge.connect]
  split
  · refine ⟨h.consistent, ?_⟩
    change (self.behaviour.journal.taken ++ (self.behaviour.dials ++ [DialRequest.mk peer self.calls])).map
      DialRequest.outcome = _
    rw [← List.append_assoc, List.map_append, h.numbered, List.range_succ]
    rfl
  · exact h

theorem Sound.step (h : self.Sound addressing) (input : Input PeerId) : (self.step addressing input).Sound addressing := by
  cases input with
  | connect peer => exact h.connect peer
  | timeout sender => exact ⟨h.consistent.depart sender, h.numbered⟩
  | poll budget => exact Behaviour.Sound.poll h budget self.connections
  | swarm event =>
    have hEvent := Behaviour.Sound.onSwarmEvent h event
    cases event <;> exact hEvent

theorem sound_run (inputs : List (Input PeerId)) : (run addressing queueDepth inputs).Sound addressing := by
  induction inputs using List.reverseRecOn with
  | nil => exact sound_connector
  | append_singleton inputs input ih =>
    rw [run_append]
    exact ih.step input

theorem connected_step (input : Input PeerId) : (self.step addressing input).behaviour.connected =
    input.link.elim self.behaviour.connected fun event => event.present self.behaviour.connected := by
  cases input with
  | connect peer =>
    rw [step, connect]
    split <;> rfl
  | timeout sender => rfl
  | poll budget => exact Behaviour.connected_poll budget self.connections
  | swarm event =>
    refine (Behaviour.connected_onSwarmEvent event).trans ?_
    cases event <;> rfl

theorem connected_run (inputs : List (Input PeerId)) :
    (run addressing queueDepth inputs).behaviour.connected = presentKeys (inputs.filterMap Input.link) := by
  induction inputs using List.reverseRecOn with
  | nil => rfl
  | append_singleton inputs input ih =>
    rw [run_append, connected_step, ih, List.filterMap_append, presentKeys, presentKeys, List.foldl_append]
    cases hLink : input.link with
    | none => simp [hLink]
    | some event => simp [hLink]

/-- With true counts, the counter is the number of peers with a live connection. -/
theorem connectivity_eq {inputs : List (Input PeerId)} (h : TrueCounts 0 (inputs.filterMap Input.link)) :
    (run addressing queueDepth inputs).behaviour.connectivity =
      (openLinks (inputs.filterMap Input.link)).toFinset.card := by
  have hCount : (run addressing queueDepth inputs).behaviour.connectivity =
      (run addressing queueDepth inputs).behaviour.connected.card :=
    (@sound_run _ _ _ addressing queueDepth inputs).consistent.shown_present
  rw [hCount, connected_run, presentKeys_eq h]

end Bridge

end Runs

section Fixtures

/-- Peer ids that are identity multihashes of one byte, and one multiaddress. -/
def inlinePeers : Addressing UInt8 String where
  fromBytes
    | [0, 1, digest] => some digest
    | _ => none
  parse address := if address = "/ip4/192.0.2.1/tcp/4001" then some address else none

def inlineCandidate (digest : UInt8) : PeerCandidate where
  recordType := recordTypeLibp2p
  peerId := [0, 1, digest]
  sequence := 1
  endpoints := [⟨"/ip4/192.0.2.1/tcp/4001"⟩]
  rawSignedRecord := [1]
  expiresAt := 0xffffffffffffffff
  source := .resurrectRegistry
  announcementBlock := none
  announcementLogIndex := none

end Fixtures

end Resurrect.Libp2p
