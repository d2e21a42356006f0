import Resurrect.Libp2p.DialBridge

/-! # The work a silent swarm can pile up

The channel bounds the requests that no poll has taken. A poll moves them to the
waiters, where nothing bounds them: a caller that times out leaves its sender
behind. What waits there is what the swarm was asked to dial and has reported no
outcome of, so the backlog can be read off the calls, the polls and the reports.
-/

namespace Resurrect.Libp2p

open Resurrect.Core Rendezvous

variable {PeerId Multiaddr : Type}

/-- The peer that a candidate names, if it can be dialed. -/
def Addressing.target (addressing : Addressing PeerId Multiaddr) (peer : PeerCandidate) : Option PeerId :=
  if peer.recordType = recordTypeLibp2p ∧ ∃ endpoint ∈ peer.endpoints, (addressing.parse endpoint.address).isSome then
    addressing.fromBytes peer.peerId
  else none

/-- The peer whose waiting calls an input tells of an outcome. -/
def Input.reported : Input PeerId → Option PeerId
  | .swarm (.connectionEstablished peerId _) => some peerId
  | .swarm (.dialFailure peerId _) => peerId
  | _ => none

section Reported

variable [DecidableEq PeerId] {input : Input PeerId}

theorem Input.filter_of_silent (h : input.reported = none) (peers : List PeerId) :
    (peers.filter fun peerId => input.reported ≠ some peerId) = peers := by
  apply List.filter_eq_self.mpr
  intro peerId _
  rw [h]
  exact decide_eq_true (Option.some_ne_none peerId).symm

theorem Input.filter_of_reported {peerId : PeerId} (h : input.reported = some peerId) (peers : List PeerId) :
    (peers.filter fun other => input.reported ≠ some other) = peers.filter (· ≠ peerId) := by
  apply List.filter_congr
  intro other _
  rw [h, decide_eq_decide, ne_eq, Option.some_inj, eq_comm]

end Reported

namespace Behaviour

/-- The requests with no outcome yet: in the channel, or with a waiter. -/
def outstanding (self : Behaviour PeerId Multiaddr) : Nat :=
  self.dials.length + (self.waiters.entries.flatMap fun entry => entry.2).length

/-- The peers with a waiting call, once for each call. -/
def awaited (addressing : Addressing PeerId Multiaddr) (self : Behaviour PeerId Multiaddr) : List PeerId :=
  (self.board addressing ∅).awaited

theorem outstanding_eq (addressing : Addressing PeerId Multiaddr) (self : Behaviour PeerId Multiaddr) :
    self.outstanding = self.dials.length + (self.awaited addressing).length := by
  rw [outstanding, awaited, Board.length_awaited]
  rfl

variable [DecidableEq PeerId]

section Dials

variable (addressing : Addressing PeerId Multiaddr)

def FindsConnected (self : Behaviour PeerId Multiaddr) (peer : PeerCandidate) : Prop :=
  peer.recordType = recordTypeLibp2p ∧ ∃ peerId ∈ self.connected, addressing.fromBytes peer.peerId = some peerId

instance decidableFindsConnected (self : Behaviour PeerId Multiaddr) (peer : PeerCandidate) :
    Decidable (self.FindsConnected addressing peer) :=
  inferInstanceAs (Decidable (_ ∧ _))

/-- The peer that a poll asks the swarm to dial. Actions still queued come first; requests
for connected peers are passed over, and the first other request ends the poll. -/
def nextDial (self : Behaviour PeerId Multiaddr) (budget : Nat) : Option PeerId :=
  match self.queue with
  | _ :: _ => none
  | [] =>
    ((self.dials.take budget).find? fun request => ¬ self.FindsConnected addressing request.peer).bind fun request =>
      addressing.target request.peer

end Dials

variable {addressing : Addressing PeerId Multiaddr} {self : Behaviour PeerId Multiaddr}
variable {request : DialRequest} {rest : List DialRequest} {connectionId : ConnectionId}

theorem accept_of_connected (h : self.FindsConnected addressing request.peer) :
    self.accept addressing request connectionId = self.send true request.outcome := by
  obtain ⟨hType, peerId, hMem, hBytes⟩ := h
  rw [accept, if_neg (not_not.mpr hType), hBytes]
  exact if_pos hMem

theorem accept_of_target {peerId : PeerId} (hNot : ¬ self.FindsConnected addressing request.peer)
    (hTarget : addressing.target request.peer = some peerId) : ∃ addresses,
      self.accept addressing request connectionId = self.startDial request ⟨peerId, addresses, connectionId⟩ := by
  rw [Addressing.target] at hTarget
  obtain ⟨⟨hType, endpoint, hEndpoint, hSome⟩, hBytes⟩ := Option.ite_none_right_eq_some.mp hTarget
  have hAbsent : peerId ∉ self.connected := fun hMem => hNot ⟨hType, peerId, hMem, hBytes⟩
  rw [accept, if_neg (not_not.mpr hType), hBytes]
  dsimp only
  rw [if_neg hAbsent]
  split
  · rename_i hNil
    rw [List.filterMap_eq_nil_iff.mp hNil endpoint hEndpoint] at hSome
    cases hSome
  · exact ⟨_, rfl⟩

theorem accept_of_no_target (hNot : ¬ self.FindsConnected addressing request.peer)
    (hTarget : addressing.target request.peer = none) : ∃ rejection,
      self.accept addressing request connectionId = self.reject request rejection := by
  rw [accept]
  split
  · exact ⟨_, rfl⟩
  rename_i hType
  rw [not_not] at hType
  split
  · exact ⟨_, rfl⟩
  rename_i peerId hBytes
  rw [if_neg fun hMem => hNot ⟨hType, peerId, hMem, hBytes⟩]
  split
  · exact ⟨_, rfl⟩
  rename_i addresses hAddresses
  rw [Addressing.target, hBytes] at hTarget
  obtain ⟨endpoint, hEndpoint, hParse⟩ : ∃ endpoint ∈ request.peer.endpoints,
      (addressing.parse endpoint.address).isSome := by
    by_contra hNone
    apply hAddresses
    apply List.filterMap_eq_nil_iff.mpr
    intro endpoint hEndpoint
    exact Option.not_isSome_iff_eq_none.mp fun hSome => hNone ⟨endpoint, hEndpoint, hSome⟩
  rw [if_pos ⟨hType, endpoint, hEndpoint, hParse⟩] at hTarget
  cases hTarget

theorem awaited_startDial (opts : DialOpts PeerId Multiaddr) :
    ((self.startDial request opts).awaited addressing).Perm (self.awaited addressing ++ [opts.peerId]) :=
  (self.board addressing ∅).awaited_wait request.outcome opts.peerId

theorem nextDial_of_connected (hQueue : self.queue = []) (hDials : self.dials = request :: rest) (budget : Nat)
    (h : self.FindsConnected addressing request.peer) : self.nextDial addressing (budget + 1) =
      ((self.receive request rest).send true request.outcome).nextDial addressing budget := by
  have hRest : ((self.receive request rest).send true request.outcome).queue = [] := hQueue
  rw [nextDial, nextDial, hQueue, hRest, hDials, List.take_succ_cons,
    List.find?_cons_of_neg (by rw [decide_eq_true_iff, not_not]; exact h)]
  rfl

theorem nextDial_of_not_connected (hQueue : self.queue = []) (hDials : self.dials = request :: rest) (budget : Nat)
    (h : ¬ self.FindsConnected addressing request.peer) :
    self.nextDial addressing (budget + 1) = addressing.target request.peer := by
  rw [nextDial, hQueue, hDials, List.take_succ_cons, List.find?_cons_of_pos (by exact decide_eq_true h)]
  rfl

/-- A poll adds the peer it asks for, and no other. -/
theorem awaited_drain (budget : Nat) (hQueue : self.queue = []) :
    ((self.drain addressing connectionId budget).2.awaited addressing).Perm
      (self.awaited addressing ++ (self.nextDial addressing budget).toList) := by
  induction budget generalizing self with
  | zero =>
    rw [nextDial, hQueue, List.take_zero]
    exact List.Perm.of_eq (List.append_nil _).symm
  | succ budget ih =>
    cases hDials : self.dials with
    | nil =>
      rw [drain, hDials, nextDial, hQueue, hDials, List.take_nil]
      exact List.Perm.of_eq (List.append_nil _).symm
    | cons request rest =>
      rw [drain, hDials]
      dsimp only
      by_cases hConnected : self.FindsConnected addressing request.peer
      · have hNext : ((self.receive request rest).send true request.outcome).queue = [] := hQueue
        have hFinds : (self.receive request rest).FindsConnected addressing request.peer := hConnected
        rw [accept_of_connected hFinds, hNext, nextDial_of_connected hQueue hDials budget hConnected]
        exact ih hNext
      · have hFinds : ¬ (self.receive request rest).FindsConnected addressing request.peer := hConnected
        rw [nextDial_of_not_connected hQueue hDials budget hConnected]
        cases hTarget : addressing.target request.peer with
        | none =>
          obtain ⟨rejection, hEq⟩ := @accept_of_no_target _ _ _ _ _ _ connectionId hFinds hTarget
          have hActions : ((self.receive request rest).reject request rejection).queue =
            [.generateEvent (.rejected rejection)] := congrArg (· ++ _) hQueue
          rw [hEq, hActions]
          exact List.Perm.of_eq (List.append_nil _).symm
        | some peerId =>
          obtain ⟨addresses, hEq⟩ := @accept_of_target _ _ _ _ _ _ connectionId _ hFinds hTarget
          have hActions : ((self.receive request rest).startDial request ⟨peerId, addresses, connectionId⟩).queue =
            [.dial ⟨peerId, addresses, connectionId⟩, .generateEvent (.dialing peerId)] := congrArg (· ++ _) hQueue
          rw [hEq, hActions]
          exact awaited_startDial _

theorem awaited_poll (budget : Nat) : ((self.poll addressing budget connectionId).2.awaited addressing).Perm
    (self.awaited addressing ++ (self.nextDial addressing budget).toList) := by
  rw [poll]
  split
  · rename_i action queue hQueue
    rw [nextDial, hQueue]
    exact List.Perm.of_eq (List.append_nil _).symm
  · rename_i hQueue
    exact awaited_drain budget hQueue

theorem awaited_wake (peerId : PeerId) (dialed : Bool) (event : Event PeerId) :
    ((if peerId ∈ self.waiters then (self.resolve peerId dialed).generate event else self).awaited addressing).Perm
      ((self.awaited addressing).filter (· ≠ peerId)) := by
  split
  · rename_i hMem
    have hBoard := @board_resolve _ _ addressing self ∅ _ peerId hMem dialed
    have hReleased := (self.board addressing ∅).awaited_release peerId dialed
    rw [← hBoard] at hReleased
    exact hReleased
  · rename_i hNone
    apply List.Perm.of_eq
    rw [eq_comm, List.filter_eq_self]
    intro other hOther
    exact decide_eq_true fun hEq => @Board.notMem_awaited _ _ _ _ (self.board addressing ∅) _ hNone (hEq ▸ hOther)

theorem dials_wake (peerId : PeerId) (dialed : Bool) (event : Event PeerId) :
    (if peerId ∈ self.waiters then (self.resolve peerId dialed).generate event else self).dials = self.dials := by
  split
  · rename_i hMem
    obtain ⟨waiters, hLookup⟩ := Option.isSome_iff_exists.mp (AList.lookup_isSome.mpr hMem)
    rw [resolve_of_lookup hLookup]
    rfl
  · rfl

theorem dials_onSwarmEvent (event : FromSwarm PeerId) : (self.onSwarmEvent event).dials = self.dials := by
  cases event with
  | connectionEstablished peerId connectionId =>
    refine (dials_wake peerId true (.connected peerId)).trans ?_
    rw [arrive]
    split <;> rfl
  | connectionClosed peerId connectionId remaining =>
    rw [onSwarmEvent]
    split <;> rfl
  | dialFailure peerId connectionId =>
    cases peerId with
    | none => rfl
    | some peerId => exact dials_wake peerId false (.dialFailed peerId)
  | other => rfl

theorem awaited_onSwarmEvent (event : FromSwarm PeerId) : ((self.onSwarmEvent event).awaited addressing).Perm
    ((self.awaited addressing).filter fun peerId => (Input.swarm event).reported ≠ some peerId) := by
  cases event with
  | connectionEstablished peerId connectionId =>
    have hArrived : (self.arrive peerId).awaited addressing = self.awaited addressing := by
      rw [arrive]
      split <;> rfl
    have hWoken := @awaited_wake _ _ _ addressing (self.arrive peerId) peerId true (.connected peerId)
    rw [hArrived] at hWoken
    exact hWoken.trans (List.Perm.of_eq (Input.filter_of_reported rfl _).symm)
  | connectionClosed peerId connectionId remaining =>
    refine List.Perm.of_eq (Eq.trans ?_ (Input.filter_of_silent rfl _).symm)
    rw [onSwarmEvent]
    split <;> rfl
  | dialFailure peerId connectionId =>
    cases peerId with
    | none => exact List.Perm.of_eq (Input.filter_of_silent rfl _).symm
    | some peerId =>
      have hWoken := @awaited_wake _ _ _ addressing self peerId false (.dialFailed peerId)
      exact hWoken.trans (List.Perm.of_eq (Input.filter_of_reported rfl _).symm)
  | other => exact List.Perm.of_eq (Input.filter_of_silent rfl _).symm

/-- A request that is taken is answered or waits. -/
theorem outstanding_accept (hDials : self.dials = request :: rest) :
    ((self.receive request rest).accept addressing request connectionId).outstanding ≤ self.outstanding := by
  rw [outstanding_eq addressing, outstanding_eq addressing, hDials, List.length_cons]
  obtain ⟨-, rejection, hEq⟩ | ⟨peerId, -, -, hEq⟩ | ⟨opts, -, -, -, hEq⟩ :=
    accept_cases (self.receive request rest) request connectionId
  · rw [hEq]
    exact Nat.add_le_add_right (Nat.le_succ _) _
  · rw [hEq]
    exact Nat.add_le_add_right (Nat.le_succ _) _
  · have hAwaited := (@awaited_startDial _ _ _ addressing (self.receive request rest) request opts).length_eq
    rw [hEq, hAwaited, List.length_append, List.length_singleton, Nat.add_left_comm, Nat.add_comm]
    exact le_rfl

theorem outstanding_poll (budget : Nat) :
    (self.poll addressing budget connectionId).2.outstanding ≤ self.outstanding := by
  apply @poll_preserves _ _ _ addressing connectionId fun behaviour => behaviour.outstanding ≤ self.outstanding
  · intro behaviour request rest h _ hDials
    exact (outstanding_accept hDials).trans h
  · intro behaviour action queue h _
    exact h
  · exact le_rfl

end Behaviour

namespace Bridge

variable {self : Bridge PeerId Multiaddr} {queueDepth : Nat}

theorem outstanding_connect (peer : PeerCandidate) (hRoom : self.behaviour.dials.length < self.capacity) :
    (self.connect peer).behaviour.outstanding = self.behaviour.outstanding + 1 := by
  rw [connect, if_pos hRoom, Behaviour.outstanding, List.length_append]
  exact Nat.add_right_comm _ 1 _

variable [DecidableEq PeerId] {addressing : Addressing PeerId Multiaddr}

section Silence

variable (addressing : Addressing PeerId Multiaddr)

/-- The peer that a step asks the swarm to dial. -/
def asked (self : Bridge PeerId Multiaddr) : Input PeerId → Option PeerId
  | .poll budget => self.behaviour.nextDial addressing budget
  | _ => none

/-- The dials that the swarm is asked for and reports no outcome of afterwards. -/
def silentDials (self : Bridge PeerId Multiaddr) : List (Input PeerId) → List PeerId
  | [] => []
  | input :: inputs =>
    ((self.asked addressing input).toList.filter (· ∉ inputs.filterMap Input.reported)) ++
      silentDials (self.step addressing input) inputs

theorem silentDials_append (self : Bridge PeerId Multiaddr) (inputs : List (Input PeerId)) (input : Input PeerId) :
    self.silentDials addressing (inputs ++ [input]) =
      ((self.silentDials addressing inputs).filter fun peerId => input.reported ≠ some peerId) ++
        ((inputs.foldl (step addressing) self).asked addressing input).toList := by
  induction inputs generalizing self with
  | nil => simp [silentDials]
  | cons first inputs ih =>
    rw [List.cons_append, silentDials, silentDials, ih, List.filter_append, List.filter_filter, List.append_assoc,
      List.foldl_cons]
    congr 1
    apply List.filter_congr
    intro peerId _
    rw [List.filterMap_append, ← Bool.decide_and, decide_eq_decide, List.mem_append, not_or, and_comm]
    apply and_congr_left'
    cases hReported : input.reported <;> simp [hReported, eq_comm]

end Silence

theorem awaited_step (input : Input PeerId) : ((self.step addressing input).behaviour.awaited addressing).Perm
    (((self.behaviour.awaited addressing).filter fun peerId => input.reported ≠ some peerId) ++
      (self.asked addressing input).toList) := by
  cases input with
  | connect peer =>
    rw [Input.filter_of_silent rfl]
    refine List.Perm.of_eq (Eq.trans ?_ (List.append_nil _).symm)
    rw [step, connect]
    split <;> rfl
  | timeout sender =>
    rw [Input.filter_of_silent rfl]
    exact List.Perm.of_eq (List.append_nil _).symm
  | poll budget =>
    rw [Input.filter_of_silent rfl]
    exact Behaviour.awaited_poll budget
  | swarm event => exact (Behaviour.awaited_onSwarmEvent event).trans (List.Perm.of_eq (List.append_nil _).symm)

/-- What waits is what the swarm was asked to dial and has not reported on. -/
theorem awaited_run (inputs : List (Input PeerId)) :
    ((run addressing queueDepth inputs).behaviour.awaited addressing).Perm
      ((connector queueDepth).silentDials addressing inputs) := by
  induction inputs using List.reverseRecOn with
  | nil => exact List.Perm.refl []
  | append_singleton inputs input ih =>
    rw [run_append, silentDials_append]
    exact (awaited_step input).trans ((ih.filter _).append_right _)

theorem outstanding_run (inputs : List (Input PeerId)) : (run addressing queueDepth inputs).behaviour.outstanding =
    (run addressing queueDepth inputs).behaviour.dials.length +
      ((connector queueDepth).silentDials addressing inputs).length := by
  rw [Behaviour.outstanding_eq addressing, (awaited_run inputs).length_eq]

/-- Only a call that finds room adds to what is outstanding. -/
theorem outstanding_step (input : Input PeerId) (hInput : ∀ peer, input ≠ .connect peer) :
    (self.step addressing input).behaviour.outstanding ≤ self.behaviour.outstanding := by
  cases input with
  | connect peer => exact absurd rfl (hInput peer)
  | timeout sender => exact le_rfl
  | poll budget => exact Behaviour.outstanding_poll budget
  | swarm event =>
    have hDials : (self.behaviour.onSwarmEvent event).dials = self.behaviour.dials := Behaviour.dials_onSwarmEvent event
    have hAwaited := (@Behaviour.awaited_onSwarmEvent _ _ _ addressing self.behaviour event).length_eq
    rw [step, Behaviour.outstanding_eq addressing, hDials, hAwaited,
      Behaviour.outstanding_eq addressing]
    exact Nat.add_le_add_left (List.length_filter_le _ _) _

theorem capacity_step (input : Input PeerId) : (self.step addressing input).capacity = self.capacity := by
  cases input with
  | connect peer =>
    rw [step, connect]
    split <;> rfl
  | swarm event => cases event <;> rfl
  | _ => rfl

variable (addressing) in
theorem capacity_run (inputs : List (Input PeerId)) :
    (run addressing queueDepth inputs).capacity = max queueDepth 1 := by
  induction inputs using List.reverseRecOn with
  | nil => rfl
  | append_singleton inputs input ih =>
    rw [run_append, capacity_step, ih]

/-- What is outstanding stays within the depth of the channel exactly when every call that the
channel admits finds fewer requests there and dials that the swarm has been silent on. -/
theorem outstanding_le_iff (addressing : Addressing PeerId Multiaddr) (queueDepth : Nat)
    (inputs : List (Input PeerId)) :
    (∀ before, before <+: inputs → (run addressing queueDepth before).behaviour.outstanding ≤ max queueDepth 1) ↔
      ∀ before peer, before ++ [.connect peer] <+: inputs →
        (run addressing queueDepth before).behaviour.dials.length < max queueDepth 1 →
        (run addressing queueDepth before).behaviour.dials.length +
          ((connector queueDepth).silentDials addressing before).length < max queueDepth 1 := by
  constructor
  · intro h before peer hPrefix hRoom
    have hNext := h _ hPrefix
    rw [← capacity_run addressing before] at hRoom
    rw [run_append, step, outstanding_connect peer hRoom, outstanding_run] at hNext
    exact hNext
  · intro h before hPrefix
    induction before using List.reverseRecOn with
    | nil => exact Nat.zero_le _
    | append_singleton before input ih =>
      have hBefore := ih ((List.prefix_append before [input]).trans hPrefix)
      rw [run_append]
      cases input with
      | connect peer =>
        by_cases hRoom : (run addressing queueDepth before).behaviour.dials.length <
            (run addressing queueDepth before).capacity
        · rw [step, outstanding_connect peer hRoom, outstanding_run]
          exact h before peer hPrefix (capacity_run addressing before ▸ hRoom)
        · rw [step, connect, if_neg hRoom]
          exact hBefore
      | _ => exact (outstanding_step _ fun peer hEq => by cases hEq).trans hBefore

/-- A caller times out and calls again, with a queue of one. -/
def retriedDial : List (Input UInt8) :=
  [.connect (inlineCandidate 7), .poll 8, .timeout 0, .connect (inlineCandidate 7)]

theorem retriedDial_exceeds : (run inlinePeers 1 retriedDial).behaviour.outstanding = 2 ∧
    ¬ ∀ queueDepth inputs, (run inlinePeers queueDepth inputs).behaviour.outstanding ≤ max queueDepth 1 := by
  have hTwo : (run inlinePeers 1 retriedDial).behaviour.outstanding = 2 := by decide +kernel
  refine ⟨hTwo, fun h => ?_⟩
  have hOne := h 1 retriedDial
  rw [hTwo] at hOne
  exact absurd hOne (by decide)

end Bridge

end Resurrect.Libp2p
