import Resurrect.Libp2p.DialBridge
import Resurrect.Node.DialHost

/-! # The host keeps the dial contract

The event loop is a `Rendezvous` board as the swarm behaviour is: peers are keys,
the callers' oneshot senders are tickets, and the status snapshot is what is
published. Here tickets can also be pruned, once their callers have gone.
-/

namespace Resurrect.Node

open Resurrect.Core Libp2p Rendezvous

section Board

variable {PeerId Multiaddr : Type} (addressing : HostAddressing PeerId Multiaddr)

def HostAnswer.answer (self : HostAnswer PeerId) : Answer PeerId Sender HostStatus :=
  ⟨self.sender, self.result.isOk, self.connected, self.status⟩

/-- The status lists exactly the connected peers. -/
def Shows (status : HostStatus) (connected : Finset PeerId) : Prop :=
  status.connectedPeers = EventLoop.sorted (connected.val.map addressing.peerToString)

theorem Shows.mem {addressing : HostAddressing PeerId Multiaddr} {status : HostStatus} {connected : Finset PeerId}
    (h : Shows addressing status connected) {peerId : PeerId} (hMem : peerId ∈ connected) :
    addressing.peerToString peerId ∈ status.connectedPeers := by
  rw [h, EventLoop.sorted, Multiset.mem_sort]
  exact Multiset.mem_map_of_mem _ hMem

theorem Shows.length {addressing : HostAddressing PeerId Multiaddr} {status : HostStatus}
    {connected : Finset PeerId} (h : Shows addressing status connected) :
    status.connectedPeers.length = connected.card := by
  rw [h, EventLoop.sorted, Multiset.length_sort, Multiset.card_map]
  rfl

namespace EventLoop

def board (self : EventLoop PeerId Multiaddr) (closed : Finset Sender) : Board PeerId Sender HostStatus where
  present := self.connected
  published := self.status
  waiters := self.pending
  taken := self.journal.taken.map (ticket addressing.toAddressing)
  answers := self.journal.answers.map HostAnswer.answer
  departed := closed
  pruned := self.journal.pruned

/-- The dialing callers whose requests are taken or wait in the channel. -/
def requests (self : EventLoop PeerId Multiaddr) : List Sender :=
  self.journal.taken.map DialRequest.outcome ++ self.commands.filterMap Command.caller

variable {addressing} {self : EventLoop PeerId Multiaddr} {closed : Finset Sender}

theorem board_send (result : Except HostError Unit) (sender : Sender) :
    (self.send result sender).board addressing closed =
      (self.board addressing closed).answer [sender] result.isOk := by
  rw [board, send, List.map_append]
  rfl

theorem board_receive (request : DialRequest) : (self.receive request).board addressing closed =
    (self.board addressing closed).take request.outcome (addressing.fromBytes request.peer.peerId) := by
  rw [board, receive, List.map_append]
  rfl

theorem foldl_send (result : Except HostError Unit) (waiters : List Sender) (self : EventLoop PeerId Multiaddr) :
    waiters.foldl (fun eventLoop waiter => eventLoop.send result waiter) self =
      { self with journal := { self.journal with
          answers := self.journal.answers ++
            waiters.map fun waiter => ⟨waiter, result, self.connected, self.status⟩ } } := by
  induction waiters generalizing self with
  | nil => simp
  | cons waiter waiters ih =>
    rw [List.foldl_cons, ih]
    simp [send]

theorem board_publishStatus : (self.publishStatus addressing).board addressing closed =
    (self.board addressing closed).publish self.connected (self.publishStatus addressing).status := rfl

theorem shows_publishStatus : Shows addressing (self.publishStatus addressing).status self.connected := rfl

theorem openWaiters_eq : openWaiters closed = Board.remaining closed := by
  funext waiters
  rw [openWaiters, Board.remaining]
  cases waiters.filter fun waiter => waiter ∉ closed <;> rfl

theorem board_pruneDialWaiters :
    (self.pruneDialWaiters closed).board addressing closed = (self.board addressing closed).prune := by
  rw [Board.prune, board, pruneDialWaiters, openWaiters_eq]
  rfl

variable [DecidableEq PeerId]

theorem board_complete {peerId : PeerId} (hMem : peerId ∈ self.pending) (result : Except HostError Unit) :
    (self.complete peerId result).board addressing closed =
      (self.board addressing closed).release peerId result.isOk := by
  obtain ⟨waiters, hLookup⟩ := Option.isSome_iff_exists.mp (AList.lookup_isSome.mpr hMem)
  have hWaiting : (self.board addressing closed).waiting peerId = waiters := by
    rw [Board.waiting, board, hLookup, Option.getD_some]
  rw [complete, hLookup]
  dsimp only
  rw [foldl_send, Board.release, hWaiting, Board.answer, board, List.map_append, List.map_map]
  rfl

theorem complete_of_not_mem {peerId : PeerId} (hNone : peerId ∉ self.pending) (result : Except HostError Unit) :
    self.complete peerId result = self := by
  rw [complete, AList.lookup_eq_none.mpr hNone]

theorem dial_cases (self : EventLoop PeerId Multiaddr) (peer : PeerCandidate) (sender : Sender)
    (dialed : Except String Unit) :
    (∃ error, self.dial addressing peer sender dialed = self.send (.error error) sender) ∨
    (∃ peerId ∈ self.connected, addressing.fromBytes peer.peerId = some peerId ∧
      self.dial addressing peer sender dialed = self.send (.ok ()) sender) ∨
    ∃ peerId ∉ self.connected, addressing.fromBytes peer.peerId = some peerId ∧
      self.dial addressing peer sender dialed = { self with
        pending := self.pending.insert peerId ((self.pending.lookup peerId).getD [] ++ [sender]) } := by
  rw [dial]
  split
  · exact .inl ⟨_, rfl⟩
  split
  · exact .inl ⟨_, rfl⟩
  rename_i peerId hBytes
  split
  · rename_i hConnected
    exact .inr (.inl ⟨peerId, hConnected, hBytes, rfl⟩)
  rename_i hAbsent
  split
  · exact .inl ⟨_, rfl⟩
  split
  · exact .inr (.inr ⟨peerId, hAbsent, hBytes, rfl⟩)
  · exact .inl ⟨_, rfl⟩

theorem consistent_dial (h : Consistent (Shows addressing) (self.board addressing closed)) {peer : PeerCandidate}
    {sender : Sender} (hFresh : sender ∉ (self.board addressing closed).taken.map Prod.fst)
    (dialed : Except String Unit) :
    Consistent (Shows addressing)
      (((self.receive ⟨peer, sender⟩).dial addressing peer sender dialed).board addressing closed) := by
  have hBoard := @board_receive _ _ addressing self closed ⟨peer, sender⟩
  obtain ⟨error, hEq⟩ | ⟨peerId, hConnected, hBytes, hEq⟩ | ⟨peerId, hAbsent, hBytes, hEq⟩ :=
    @dial_cases _ _ addressing _ (self.receive ⟨peer, sender⟩) peer sender dialed
  · rw [hEq, board_send, hBoard]
    exact (Step.refuse hFresh).consistent h
  · rw [hEq, board_send, hBoard, hBytes]
    exact (Step.confirm hFresh hConnected).consistent h
  · have hWait : ({ self.receive ⟨peer, sender⟩ with
        pending := self.pending.insert peerId ((self.pending.lookup peerId).getD [] ++ [sender]) } :
          EventLoop PeerId Multiaddr).board addressing closed =
        ((self.receive ⟨peer, sender⟩).board addressing closed).wait sender peerId := rfl
    refine hEq ▸ ?_
    rw [hBoard, hBytes] at hWait
    exact hWait ▸ (Step.wait hFresh hAbsent).consistent h

theorem consistent_publishStatus (h : Consistent (Shows addressing) (self.board addressing closed)) :
    Consistent (Shows addressing) ((self.publishStatus addressing).board addressing closed) :=
  (Step.republish shows_publishStatus).consistent h

theorem consistent_established (h : Consistent (Shows addressing) (self.board addressing closed)) (peerId : PeerId) :
    Consistent (Shows addressing)
      ((complete (publishStatus addressing { self with connected := insert peerId self.connected })
        peerId (.ok ())).board addressing closed) := by
  by_cases hMem : peerId ∈ self.pending
  · have hWaits : peerId ∈ (publishStatus addressing
        { self with connected := insert peerId self.connected }).pending := hMem
    rw [board_complete hWaits, board_publishStatus]
    exact (Step.enter shows_publishStatus).consistent h
  · have hNone : peerId ∉ (publishStatus addressing
        { self with connected := insert peerId self.connected }).pending := hMem
    rw [complete_of_not_mem hNone, board_publishStatus]
    apply h.publish shows_publishStatus
    intro other hOther
    obtain rfl | hOther := Finset.mem_insert.mp hOther
    · exact hMem
    · exact h.disjoint other hOther

theorem consistent_handleCommand (h : Consistent (Shows addressing) (self.board addressing closed))
    (dialed : Except String Unit) {command : Command}
    (hFresh : ∀ sender ∈ command.caller, sender ∉ (self.board addressing closed).taken.map Prod.fst) :
    Consistent (Shows addressing) ((self.handleCommand addressing closed dialed command).board addressing closed) := by
  cases command with
  | dial peer sender => exact consistent_dial h (hFresh sender rfl) dialed
  | addVerified peer =>
    apply consistent_publishStatus
    split
    · exact h
    · exact h
  | nativeCandidates sender => exact h
  | pruneDialWaiters =>
    rw [handleCommand, board_pruneDialWaiters]
    exact Step.prune.consistent h
  | shutdown sender => exact h

theorem intake_complete (peerId : PeerId) (result : Except HostError Unit) :
    (self.complete peerId result).journal.taken = self.journal.taken ∧
      (self.complete peerId result).commands = self.commands := by
  rw [complete]
  split
  · exact ⟨rfl, rfl⟩
  · rw [foldl_send]
    exact ⟨rfl, rfl⟩

theorem connected_complete (peerId : PeerId) (result : Except HostError Unit) :
    (self.complete peerId result).connected = self.connected := by
  rw [complete]
  split
  · rfl
  · rw [foldl_send]

theorem connected_handleCommand (dialed : Except String Unit) (command : Command) :
    (self.handleCommand addressing closed dialed command).connected = self.connected := by
  cases command with
  | dial peer sender =>
    obtain ⟨error, hEq⟩ | ⟨peerId, -, -, hEq⟩ | ⟨peerId, -, -, hEq⟩ :=
      @dial_cases _ _ addressing _ (self.receive ⟨peer, sender⟩) peer sender dialed
    all_goals
      rw [handleCommand, hEq]
      rfl
  | addVerified peer =>
    rw [handleCommand]
    split <;> rfl
  | nativeCandidates sender => rfl
  | pruneDialWaiters => rfl
  | shutdown sender => rfl

theorem intake_dial (peer : PeerCandidate) (sender : Sender) (dialed : Except String Unit) :
    (self.dial addressing peer sender dialed).journal.taken = self.journal.taken ∧
      (self.dial addressing peer sender dialed).commands = self.commands := by
  obtain ⟨error, hEq⟩ | ⟨peerId, -, -, hEq⟩ | ⟨peerId, -, -, hEq⟩ := dial_cases self peer sender dialed
  all_goals
    rw [hEq]
    exact ⟨rfl, rfl⟩

theorem commands_handleCommand (dialed : Except String Unit) (command : Command) :
    (self.handleCommand addressing closed dialed command).commands = self.commands := by
  cases command with
  | dial peer sender => exact (intake_dial peer sender dialed).2
  | addVerified peer =>
    rw [handleCommand]
    split <;> rfl
  | _ => rfl

/-- A request moves from the channel to the taken ones. -/
theorem requests_handleCommand {command : Command} {commands : List Command}
    (hCommands : self.commands = command :: commands) (dialed : Except String Unit) :
    (({ self with commands } : EventLoop PeerId Multiaddr).handleCommand addressing closed dialed command).requests =
      self.requests := by
  have hRequests : self.requests = self.journal.taken.map DialRequest.outcome ++
      (command :: commands).filterMap Command.caller := by
    rw [requests, hCommands]
  rw [hRequests]
  cases command with
  | dial peer sender =>
    obtain ⟨hTaken, hRest⟩ := @intake_dial _ _ addressing
      (({ self with commands } : EventLoop PeerId Multiaddr).receive ⟨peer, sender⟩) _ peer sender dialed
    rw [handleCommand, requests, hTaken, hRest, receive, List.map_append, List.append_assoc]
    rfl
  | addVerified peer =>
    rw [handleCommand]
    split <;> rfl
  | nativeCandidates sender => rfl
  | pruneDialWaiters => rfl
  | shutdown sender => rfl

variable [DecidableEq Multiaddr]

theorem consistent_handleSwarm (h : Consistent (Shows addressing) (self.board addressing closed))
    (event : SwarmEvent PeerId Multiaddr) :
    Consistent (Shows addressing) ((self.handleSwarm addressing event).board addressing closed) := by
  cases event with
  | connectionEstablished peerId connectionId => exact consistent_established h peerId
  | connectionClosed peerId connectionId numEstablished =>
    rw [handleSwarm]
    split
    · exact (Step.leave shows_publishStatus).consistent h
    · exact h
  | outgoingConnectionError peerId connectionId error =>
    cases peerId with
    | none => exact h
    | some peerId =>
      rw [handleSwarm]
      by_cases hMem : peerId ∈ self.pending
      · rw [board_complete hMem]
        exact Step.fail.consistent h
      · rw [complete_of_not_mem hMem]
        exact h
  | other => exact h
  | _ =>
    apply consistent_publishStatus
    exact h

theorem connected_handleSwarm (event : SwarmEvent PeerId Multiaddr) :
    (self.handleSwarm addressing event).connected = match event with
      | .connectionEstablished peerId _ => insert peerId self.connected
      | .connectionClosed peerId _ numEstablished =>
        if numEstablished = 0 then self.connected.erase peerId else self.connected
      | _ => self.connected := by
  cases event with
  | connectionEstablished peerId connectionId => exact connected_complete peerId (.ok ())
  | connectionClosed peerId connectionId numEstablished =>
    rw [handleSwarm]
    split
    · rename_i hZero
      exact (if_pos hZero).symm
    · rename_i hOther
      exact (if_neg hOther).symm
  | outgoingConnectionError peerId connectionId error =>
    cases peerId with
    | none => rfl
    | some peerId => exact connected_complete peerId (.error (.dial error))
  | _ => rfl

theorem intake_handleSwarm (event : SwarmEvent PeerId Multiaddr) :
    (self.handleSwarm addressing event).journal.taken = self.journal.taken ∧
      (self.handleSwarm addressing event).commands = self.commands := by
  cases event with
  | connectionEstablished peerId connectionId => exact intake_complete peerId (.ok ())
  | connectionClosed peerId connectionId numEstablished =>
    rw [handleSwarm]
    split <;> exact ⟨rfl, rfl⟩
  | outgoingConnectionError peerId connectionId error =>
    cases peerId with
    | none => exact ⟨rfl, rfl⟩
    | some peerId => exact intake_complete peerId (.error (.dial error))
  | _ => exact ⟨rfl, rfl⟩

theorem requests_handleSwarm (event : SwarmEvent PeerId Multiaddr) :
    (self.handleSwarm addressing event).requests = self.requests := by
  obtain ⟨hTaken, hCommands⟩ := @intake_handleSwarm _ _ addressing self _ _ event
  rw [requests, hTaken, hCommands, requests]

end EventLoop

end Board

section Runs

variable {PeerId Multiaddr : Type} [DecidableEq PeerId]

def HostInput.link : HostInput PeerId Multiaddr → Option (LinkEvent PeerId)
  | .swarm (.connectionEstablished peerId _) => some (.opened peerId)
  | .swarm (.connectionClosed peerId _ numEstablished) => some (.closed peerId numEstablished)
  | _ => none

namespace DialHost

variable {addressing : HostAddressing PeerId Multiaddr} {self : DialHost PeerId Multiaddr} {call : Sender}

variable (addressing) in
/-- A host that has sent each call's request once at most. -/
structure Sound (host : DialHost PeerId Multiaddr) : Prop where
  consistent : Consistent (Shows addressing) (host.eventLoop.board addressing host.closed)
  distinct : host.eventLoop.requests.Nodup
  sent : ∀ call ∈ host.eventLoop.requests, host.phase call ≠ .unsent

/-- The phase of one call changes, its request has been sent. -/
theorem Sound.enter (h : self.Sound addressing) (call : Sender) {phase : Phase} (hSent : phase ≠ .unsent) :
    (self.enter call phase).Sound addressing := by
  refine ⟨h.consistent, h.distinct, ?_⟩
  intro other hOther
  rw [phase_enter]
  split
  · exact hSent
  · exact h.sent other hOther

theorem Sound.close (h : self.Sound addressing) (call : Sender) {phase : Phase} (hSent : phase ≠ .unsent) :
    (self.close call phase).Sound addressing := by
  obtain ⟨hConsistent, hDistinct, hPhases⟩ := h.enter call hSent
  exact ⟨hConsistent.depart call, hDistinct, hPhases⟩

/-- A command that asks for no dial joins the channel. -/
theorem Sound.push (h : self.Sound addressing) {command : Command} (hCaller : command.caller = none) :
    (self.push command).Sound addressing := by
  have hRequests : (self.push command).eventLoop.requests = self.eventLoop.requests := by
    rw [EventLoop.requests, DialHost.push, List.filterMap_append, List.filterMap_cons, hCaller]
    exact congrArg _ (List.append_nil _)
  exact ⟨h.consistent, hRequests ▸ h.distinct, hRequests ▸ h.sent⟩

theorem Sound.push_dial (h : self.Sound addressing) (peer : PeerCandidate) (hUnsent : self.phase call = .unsent) :
    ((self.push (.dial peer call)).enter call .waiting).Sound addressing := by
  have hRequests : (self.push (.dial peer call)).eventLoop.requests = self.eventLoop.requests ++ [call] := by
    rw [EventLoop.requests, DialHost.push, List.filterMap_append, ← List.append_assoc]
    rfl
  refine ⟨h.consistent, ?_, ?_⟩
  · change (self.push (.dial peer call)).eventLoop.requests.Nodup
    rw [hRequests]
    apply h.distinct.append (List.nodup_singleton call)
    rw [List.disjoint_singleton]
    exact fun hMem => h.sent call hMem hUnsent
  · intro other hOther
    rw [phase_enter]
    split
    · exact Phase.noConfusion
    · rename_i hEq
      replace hOther : other ∈ self.eventLoop.requests ++ [call] := hRequests ▸ hOther
      obtain hOther | hOther := List.mem_append.mp hOther
      · exact h.sent other hOther
      · exact absurd (List.mem_singleton.mp hOther) hEq

theorem Sound.handled (h : self.Sound addressing) {command : Command} {commands : List Command}
    (hCommands : self.eventLoop.commands = command :: commands) (dialed : Except String Unit) :
    (self.handle addressing dialed command commands).Sound addressing := by
  have hRequests := @EventLoop.requests_handleCommand _ _ addressing self.eventLoop self.closed _ _ _ hCommands dialed
  refine ⟨?_, hRequests ▸ h.distinct, hRequests ▸ h.sent⟩
  have hConsistent : Consistent (Shows addressing)
      (({ self.eventLoop with commands } : EventLoop PeerId Multiaddr).board addressing self.closed) := h.consistent
  apply EventLoop.consistent_handleCommand hConsistent
  intro sender hSender hTaken
  have hDistinct := h.distinct
  rw [EventLoop.requests, hCommands, List.filterMap_cons, hSender] at hDistinct
  have hOutcome : (self.eventLoop.board addressing self.closed).taken.map Prod.fst =
      self.eventLoop.journal.taken.map DialRequest.outcome := by
    rw [EventLoop.board, List.map_map]
    rfl
  rw [← hOutcome] at hDistinct
  exact List.disjoint_of_nodup_append hDistinct hTaken List.mem_cons_self

variable [DecidableEq Multiaddr]

theorem sound_start (localPeerId : PeerId) (configuredPeers : List (PeerId × Multiaddr)) :
    (start addressing localPeerId configuredPeers).Sound addressing := by
  refine ⟨?_, List.nodup_nil, fun _ hMem => by cases hMem⟩
  constructor
  · exact (Multiset.sort_zero _).symm
  all_goals simp [start, EventLoop.new, EventLoop.board, Board.waiting]

theorem HostStep.sound {input : HostInput PeerId Multiaddr} {next : DialHost PeerId Multiaddr}
    (hStep : HostStep addressing self input next) (h : self.Sound addressing) : next.Sound addressing := by
  cases hStep with
  | idle => exact h
  | asked hCaller => exact h.push hCaller
  | sent hUnsent => exact h.push_dial _ hUnsent
  | refused => exact h.close _ Phase.noConfusion
  | delivered => exact h.close _ Phase.noConfusion
  | abandoned => exact h.close _ Phase.noConfusion
  | expired => exact h.close _ Phase.noConfusion
  | pruned => exact (h.push rfl).enter _ Phase.noConfusion
  | forgotten => exact h.enter _ Phase.noConfusion
  | dropped => exact h.close _ Phase.noConfusion
  | hungUp => exact ⟨h.consistent, h.distinct, h.sent⟩
  | @stopped _ _ commands hCommands =>
    have hRequests : ({ self.eventLoop with commands } : EventLoop PeerId Multiaddr).requests =
        self.eventLoop.requests := by
      rw [EventLoop.requests, EventLoop.requests, hCommands]
      rfl
    exact ⟨h.consistent, hRequests ▸ h.distinct, hRequests ▸ h.sent⟩
  | handled _ hCommands => exact h.handled hCommands _
  | swarm =>
    have hRequests := @EventLoop.requests_handleSwarm _ _ addressing self.eventLoop _ _
    exact ⟨EventLoop.consistent_handleSwarm h.consistent _, hRequests _ ▸ h.distinct, hRequests _ ▸ h.sent⟩

theorem sound_run (localPeerId : PeerId) (configuredPeers : List (PeerId × Multiaddr))
    (inputs : List (HostInput PeerId Multiaddr)) :
    (run addressing localPeerId configuredPeers inputs).Sound addressing := by
  induction inputs using List.reverseRecOn with
  | nil => exact sound_start localPeerId configuredPeers
  | append_singleton inputs input ih =>
    rw [run_append]
    exact (hostStep _ input).sound ih

/-- Only connection events change who is connected. -/
theorem HostStep.connected {input : HostInput PeerId Multiaddr} {next : DialHost PeerId Multiaddr}
    (hStep : HostStep addressing self input next) (hRunning : next.running = true) :
    self.running = true ∧ next.eventLoop.connected =
      input.link.elim self.eventLoop.connected fun event => event.present self.eventLoop.connected := by
  cases hStep with
  | idle hSwarm =>
    refine ⟨hRunning, ?_⟩
    cases input with
    | swarm event => exact absurd hRunning (Bool.eq_false_iff.mp (hSwarm event rfl))
    | _ => rfl
  | asked hCaller hSwarm =>
    refine ⟨hRunning, ?_⟩
    cases input with
    | swarm event => exact absurd rfl (hSwarm event)
    | _ => rfl
  | hungUp => cases hRunning
  | stopped => cases hRunning
  | handled => exact ⟨hRunning, EventLoop.connected_handleCommand _ _⟩
  | @swarm event =>
    refine ⟨hRunning, (EventLoop.connected_handleSwarm event).trans ?_⟩
    cases event <;> rfl
  | _ => exact ⟨hRunning, rfl⟩

theorem connected_run {localPeerId : PeerId} {configuredPeers : List (PeerId × Multiaddr)}
    {inputs : List (HostInput PeerId Multiaddr)}
    (hRunning : (run addressing localPeerId configuredPeers inputs).running = true) :
    (run addressing localPeerId configuredPeers inputs).eventLoop.connected =
      presentKeys (inputs.filterMap HostInput.link) := by
  induction inputs using List.reverseRecOn with
  | nil => rfl
  | append_singleton inputs input ih =>
    rw [run_append] at hRunning ⊢
    obtain ⟨hBefore, hConnected⟩ := (hostStep _ input).connected hRunning
    rw [hConnected, ih hBefore, List.filterMap_append, presentKeys, presentKeys, List.foldl_append]
    cases hLink : input.link with
    | none => simp [hLink]
    | some event => simp [hLink]

/-- With true counts, the status lists as many peers as have a live connection. -/
theorem length_connectedPeers {localPeerId : PeerId} {configuredPeers : List (PeerId × Multiaddr)}
    {inputs : List (HostInput PeerId Multiaddr)}
    (hRunning : (run addressing localPeerId configuredPeers inputs).running = true)
    (hCounts : TrueCounts 0 (inputs.filterMap HostInput.link)) :
    (run addressing localPeerId configuredPeers inputs).eventLoop.status.connectedPeers.length =
      (openLinks (inputs.filterMap HostInput.link)).toFinset.card := by
  have hShown : Shows addressing (run addressing localPeerId configuredPeers inputs).eventLoop.status
      (run addressing localPeerId configuredPeers inputs).eventLoop.connected :=
    (sound_run localPeerId configuredPeers inputs).consistent.shown_present
  rw [hShown.length, connected_run hRunning, presentKeys_eq hCounts]

end DialHost

end Runs

section Contract

variable {PeerId Multiaddr : Type} [DecidableEq PeerId] [DecidableEq Multiaddr]

/-- Both dial bridges, in every order of requests, commands, time-outs and swarm events. -/
theorem dialBridges_consistent (addressing : HostAddressing PeerId Multiaddr) :
    (∀ (queueDepth : Nat) (inputs : List (Input PeerId)),
      let bridge := Bridge.run addressing.toAddressing queueDepth inputs
      Consistent Counts (bridge.behaviour.board addressing.toAddressing bridge.expired) ∧
      (TrueCounts 0 (inputs.filterMap Input.link) →
        bridge.behaviour.connectivity = (openLinks (inputs.filterMap Input.link)).toFinset.card)) ∧
    ∀ (localPeerId : PeerId) (configuredPeers : List (PeerId × Multiaddr))
      (inputs : List (HostInput PeerId Multiaddr)),
      let host := DialHost.run addressing localPeerId configuredPeers inputs
      Consistent (Shows addressing) (host.eventLoop.board addressing host.closed) ∧
      (∀ answer ∈ host.eventLoop.journal.answers, answer.result.isOk = true → ∃ peerId ∈ answer.connected,
        addressing.peerToString peerId ∈ answer.status.connectedPeers ∧
          answer.status.connectedPeers.length = answer.connected.card) ∧
      (host.running = true → TrueCounts 0 (inputs.filterMap HostInput.link) →
        host.eventLoop.status.connectedPeers.length =
          (openLinks (inputs.filterMap HostInput.link)).toFinset.card) := by
  constructor
  · intro queueDepth inputs
    exact ⟨(Bridge.sound_run inputs).consistent, Bridge.connectivity_eq⟩
  · intro localPeerId configuredPeers inputs
    have hConsistent := (@DialHost.sound_run _ _ _ addressing _ localPeerId configuredPeers inputs).consistent
    refine ⟨hConsistent, ?_, DialHost.length_connectedPeers⟩
    intro answer hMem hOk
    obtain ⟨peerId, hPeer, -, hShown⟩ := hConsistent.confirmed answer.answer (List.mem_map_of_mem hMem) hOk
    exact ⟨peerId, hPeer, Shows.mem hShown hPeer, Shows.length hShown⟩

def base58 (digit : Nat) : Char :=
  "123456789ABCDEFGHJKLMNPQRSTUVWXYZabcdefghijkmnopqrstuvwxyz".toList.getD digit '1'

/-- The inline peers with their bytes and their base58 texts. -/
def inlineHost : HostAddressing UInt8 String where
  toAddressing := inlinePeers
  toBytes digest := [0, 1, digest]
  peerToString digest := .ofList ['1', base58 ((256 + digest.toNat) / 58), base58 ((256 + digest.toNat) % 58)]
  addressToString address := address

/-- Two connections of one peer, the first closing while the second lives, then both gone. -/
theorem dialBridges_consistent_inline :
    (Bridge.run inlinePeers 8 [.connect (inlineCandidate 7), .poll 8, .swarm (.connectionEstablished 7 0),
        .swarm (.connectionEstablished 7 1), .swarm (.connectionClosed 7 0 1)]).behaviour.connectivity =
      (openLinks [.opened 7, .opened 7, .closed (7 : UInt8) 1]).toFinset.card ∧
    (DialHost.run inlineHost 3 [] [.send 0 (inlineCandidate 7), .command (.ok ()),
        .swarm (.connectionEstablished 7 0), .swarm (.connectionClosed 7 0 0)]).eventLoop.status.connectedPeers.length =
      (openLinks [.opened 7, .closed (7 : UInt8) 0]).toFinset.card :=
  ⟨((dialBridges_consistent inlineHost).1 8 _).2 ⟨by decide, trivial⟩,
    ((dialBridges_consistent inlineHost).2 3 [] _).2.2 (by decide) ⟨by decide, trivial⟩⟩

end Contract

end Resurrect.Node
