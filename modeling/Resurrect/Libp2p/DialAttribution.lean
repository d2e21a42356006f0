import Resurrect.Libp2p.DialBridge

/-! # Whose failure answers a caller

Waiters are kept by peer, failures are reported by connection. A failure answers
all waiters of its peer, so a caller hears of an attempt that is not its own as
soon as two attempts to one peer overlap. While every failure that meets waiters
is the last open attempt to its peer, each outcome is attributed to its own attempt.
-/

namespace Resurrect.Libp2p

open Resurrect.Core

variable {PeerId Multiaddr : Type}

def Attempt.Resolved (failures : List ConnectionId) (establishments : List (PeerId × ConnectionId))
    (attempt : Attempt PeerId) : Prop :=
  attempt.connectionId ∈ failures ∨ (attempt.peerId, attempt.connectionId) ∈ establishments

namespace Behaviour

variable (addressing : Addressing PeerId Multiaddr) (failures : List ConnectionId)
variable (establishments : List (PeerId × ConnectionId))

/-- A call is answered false only for itself, and a failed peer has no attempt in progress. -/
structure Attributed (behaviour : Behaviour PeerId Multiaddr) : Prop where
  answers : ∀ answer ∈ behaviour.journal.answers, answer.dialed = false →
    (∃ request ∈ behaviour.journal.taken, request.outcome = answer.sender ∧ Undialable addressing request.peer) ∨
    ∃ attempt ∈ behaviour.journal.attempts, attempt.sender = answer.sender ∧ attempt.connectionId ∈ failures
  events : ∀ peerId, .generateEvent (.dialFailed peerId) ∈ behaviour.queue →
    ∀ attempt ∈ behaviour.journal.attempts, attempt.peerId = peerId → attempt.Resolved failures establishments

variable {addressing failures establishments} {self : Behaviour PeerId Multiaddr}

theorem Attributed.mono {more : List ConnectionId} {others : List (PeerId × ConnectionId)}
    (h : self.Attributed addressing failures establishments) (hFailures : failures ⊆ more)
    (hEstablishments : establishments ⊆ others) : self.Attributed addressing more others where
  answers answer hMem hFalse := by
    obtain hRejected | ⟨attempt, hAttempt, hSender, hFailed⟩ := h.answers answer hMem hFalse
    · exact .inl hRejected
    · exact .inr ⟨attempt, hAttempt, hSender, hFailures hFailed⟩
  events peerId hEvent attempt hAttempt hPeer := by
    obtain hFailed | hEstablished := h.events peerId hEvent attempt hAttempt hPeer
    · exact .inl (hFailures hFailed)
    · exact .inr (hEstablishments hEstablished)

variable [DecidableEq PeerId]

variable (establishments) in
/-- Every waiter has an attempt of its own whose connection has not been established. -/
def Pursued (behaviour : Behaviour PeerId Multiaddr) : Prop :=
  ∀ peerId waiters, behaviour.waiters.lookup peerId = some waiters → ∀ sender ∈ waiters,
    ∃ attempt ∈ behaviour.journal.attempts, attempt.sender = sender ∧ attempt.peerId = peerId ∧
      (peerId, attempt.connectionId) ∉ establishments

variable {request : DialRequest} {rest : List DialRequest}

theorem Attributed.accept (h : self.Attributed addressing failures establishments) (hQueue : self.queue = [])
    (connectionId : ConnectionId) : ((self.receive request rest).accept addressing request connectionId).Attributed
      addressing failures establishments := by
  have hTaken : ∀ other ∈ self.journal.taken, other ∈ (self.receive request rest).journal.taken :=
    fun other hMem => List.mem_append_left _ hMem
  have hAnswers : ∀ answer ∈ self.journal.answers, answer.dialed = false →
      (∃ other ∈ (self.receive request rest).journal.taken, other.outcome = answer.sender ∧
        Undialable addressing other.peer) ∨
      ∃ attempt ∈ self.journal.attempts, attempt.sender = answer.sender ∧ attempt.connectionId ∈ failures := by
    intro answer hMem hFalse
    obtain ⟨other, hOther, hRejected⟩ | hAttempt := h.answers answer hMem hFalse
    · exact .inl ⟨other, hTaken other hOther, hRejected⟩
    · exact .inr hAttempt
  obtain ⟨hUndialable, rejection, hEq⟩ | ⟨peerId, -, -, hEq⟩ | ⟨opts, -, -, -, hEq⟩ :=
    accept_cases (self.receive request rest) request connectionId
  · rw [hEq]
    constructor
    · intro answer hMem hFalse
      obtain hMem | hMem := List.mem_append.mp hMem
      · exact hAnswers answer hMem hFalse
      · obtain rfl := List.mem_singleton.mp hMem
        exact .inl ⟨request, List.mem_append_right _ (List.mem_singleton.mpr rfl), rfl, hUndialable⟩
    · intro peerId hEvent
      have hQueued : ToSwarm.generateEvent (.dialFailed peerId) ∈
          self.queue ++ [(.generateEvent (.rejected rejection) : ToSwarm PeerId Multiaddr)] := hEvent
      rw [hQueue] at hQueued
      cases List.mem_singleton.mp hQueued
  · rw [hEq]
    constructor
    · intro answer hMem hFalse
      obtain hMem | hMem := List.mem_append.mp hMem
      · exact hAnswers answer hMem hFalse
      · rw [List.mem_singleton.mp hMem] at hFalse
        cases hFalse
    · exact h.events
  · rw [hEq]
    constructor
    · intro answer hMem hFalse
      obtain hRejected | ⟨attempt, hAttempt, hOwn⟩ := hAnswers answer hMem hFalse
      · exact .inl hRejected
      · exact .inr ⟨attempt, List.mem_append_left _ hAttempt, hOwn⟩
    · intro peerId hEvent
      have hQueued : ToSwarm.generateEvent (.dialFailed peerId) ∈
          self.queue ++ [.dial opts, .generateEvent (.dialing opts.peerId)] := hEvent
      rw [hQueue] at hQueued
      simp at hQueued

theorem Pursued.accept (h : self.Pursued establishments) {connectionId : ConnectionId}
    (hNew : ∀ peerId, (peerId, connectionId) ∉ establishments) :
    ((self.receive request rest).accept addressing request connectionId).Pursued establishments := by
  obtain ⟨-, rejection, hEq⟩ | ⟨peerId, -, -, hEq⟩ | ⟨opts, -, hOpts, -, hEq⟩ :=
    accept_cases (self.receive request rest) request connectionId
  · rw [hEq]
    exact h
  · rw [hEq]
    exact h
  · rw [hEq]
    intro peerId waiters hLookup sender hSender
    by_cases hPeer : peerId = opts.peerId
    · subst hPeer
      rw [startDial, AList.lookup_insert] at hLookup
      rw [← Option.some.inj hLookup] at hSender
      obtain hSender | hSender := List.mem_append.mp hSender
      · cases hHeld : self.waiters.lookup opts.peerId with
        | none =>
          rw [receive, hHeld] at hSender
          cases hSender
        | some held =>
          rw [receive, hHeld] at hSender
          obtain ⟨attempt, hAttempt, hOwn⟩ := h opts.peerId held hHeld sender hSender
          exact ⟨attempt, List.mem_append_left _ hAttempt, hOwn⟩
      · refine ⟨⟨request.outcome, opts.peerId, opts.connectionId⟩, ?_, (List.mem_singleton.mp hSender).symm, rfl, ?_⟩
        · exact List.mem_append_right _ (List.mem_singleton.mpr rfl)
        · rw [hOpts]
          exact hNew opts.peerId
    · rw [startDial, AList.lookup_insert_ne hPeer] at hLookup
      obtain ⟨attempt, hAttempt, hOwn⟩ := h peerId waiters hLookup sender hSender
      exact ⟨attempt, List.mem_append_left _ hAttempt, hOwn⟩

theorem Attributed.poll (h : self.Attributed addressing failures establishments) (budget : Nat)
    (connectionId : ConnectionId) :
    (self.poll addressing budget connectionId).2.Attributed addressing failures establishments := by
  apply poll_preserves _ _ budget h
  · intro behaviour request rest h hQueue _
    exact h.accept hQueue connectionId
  · intro behaviour action queue h hQueue
    refine ⟨h.answers, fun peerId hEvent => ?_⟩
    exact h.events peerId (hQueue ▸ List.mem_cons_of_mem action hEvent)

theorem Pursued.poll (h : self.Pursued establishments) (budget : Nat) {connectionId : ConnectionId}
    (hNew : ∀ peerId, (peerId, connectionId) ∉ establishments) :
    (self.poll addressing budget connectionId).2.Pursued establishments := by
  apply poll_preserves _ _ budget h
  · intro behaviour request rest h _ _
    exact h.accept hNew
  · intro behaviour action queue h _
    exact h

theorem Pursued.resolve (h : self.Pursued establishments) (peerId : PeerId) (dialed : Bool) :
    (self.resolve peerId dialed).Pursued establishments := by
  cases hLookup : self.waiters.lookup peerId with
  | none =>
    rw [Behaviour.resolve, hLookup]
    exact h
  | some waiters =>
    rw [resolve_of_lookup hLookup]
    intro other others hOther sender hSender
    by_cases hEq : other = peerId
    · rw [hEq, AList.lookup_erase] at hOther
      cases hOther
    · rw [AList.lookup_erase_ne hEq] at hOther
      exact h other others hOther sender hSender

theorem Attributed.wake (h : self.Attributed addressing failures establishments) {peerId : PeerId} {dialed : Bool}
    {event : Event PeerId}
    (hOwn : dialed = false → ∀ waiters, self.waiters.lookup peerId = some waiters → ∀ sender ∈ waiters,
      ∃ attempt ∈ self.journal.attempts, attempt.sender = sender ∧ attempt.connectionId ∈ failures)
    (hEvent : ∀ other, event = .dialFailed other → ∀ attempt ∈ self.journal.attempts, attempt.peerId = other →
      attempt.Resolved failures establishments)
    (hMem : peerId ∈ self.waiters) :
    ((self.resolve peerId dialed).generate event).Attributed addressing failures establishments := by
  obtain ⟨waiters, hLookup⟩ := Option.isSome_iff_exists.mp (AList.lookup_isSome.mpr hMem)
  rw [resolve_of_lookup hLookup]
  constructor
  · intro answer hAnswer hFalse
    obtain hAnswer | hAnswer := List.mem_append.mp hAnswer
    · exact h.answers answer hAnswer hFalse
    · obtain ⟨sender, hSender, rfl⟩ := List.mem_map.mp hAnswer
      exact .inr (hOwn hFalse waiters hLookup sender hSender)
  · intro other hQueued
    obtain hQueued | hQueued := List.mem_append.mp hQueued
    · exact h.events other hQueued
    · have hEq : ToSwarm.generateEvent (.dialFailed other) =
          (.generateEvent event : ToSwarm PeerId Multiaddr) := List.mem_singleton.mp hQueued
      exact hEvent other (ToSwarm.generateEvent.inj hEq).symm

theorem Attributed.established (h : self.Attributed addressing failures establishments) (peerId : PeerId)
    (connectionId : ConnectionId) : (self.onSwarmEvent (.connectionEstablished peerId connectionId)).Attributed
      addressing failures establishments := by
  have hArrived : (self.arrive peerId).Attributed addressing failures establishments := by
    rw [arrive]
    split
    · exact h
    · exact ⟨h.answers, h.events⟩
  rw [onSwarmEvent]
  split
  · rename_i hMem
    apply hArrived.wake _ _ hMem
    · exact fun hFalse => by cases hFalse
    · exact fun other hEvent => by cases hEvent
  · exact hArrived

theorem Pursued.cons (h : self.Pursued establishments) {peerId : PeerId} (hNone : peerId ∉ self.waiters)
    (connectionId : ConnectionId) : self.Pursued ((peerId, connectionId) :: establishments) := by
  intro other waiters hLookup sender hSender
  obtain ⟨attempt, hAttempt, hOwn, hPeer, hOpen⟩ := h other waiters hLookup sender hSender
  refine ⟨attempt, hAttempt, hOwn, hPeer, fun hMem => ?_⟩
  obtain hEq | hMem := List.mem_cons.mp hMem
  · obtain ⟨rfl, -⟩ := Prod.mk.inj hEq
    exact hNone (AList.lookup_isSome.mp (by rw [hLookup]; rfl))
  · exact hOpen hMem

theorem Pursued.established (h : self.Pursued establishments) (peerId : PeerId) (connectionId : ConnectionId) :
    (self.onSwarmEvent (.connectionEstablished peerId connectionId)).Pursued
      ((peerId, connectionId) :: establishments) := by
  have hArrived : (self.arrive peerId).Pursued establishments := by
    rw [arrive]
    split
    · exact h
    · exact h
  rw [onSwarmEvent]
  split
  · rename_i hMem
    obtain ⟨waiters, hLookup⟩ := Option.isSome_iff_exists.mp (AList.lookup_isSome.mpr hMem)
    apply (hArrived.resolve peerId true).cons
    rw [resolve_of_lookup hLookup, AList.mem_erase]
    exact fun hErased => hErased.1 rfl
  · rename_i hNone
    exact hArrived.cons hNone connectionId

theorem Attributed.dialFailure (h : self.Attributed addressing failures establishments)
    (hPursued : self.Pursued establishments) {peerId : PeerId} {connectionId : ConnectionId}
    (hLast : peerId ∈ self.waiters → ∀ attempt ∈ self.journal.attempts, attempt.peerId = peerId →
      attempt.connectionId ≠ connectionId → attempt.Resolved failures establishments) :
    (self.onSwarmEvent (.dialFailure (some peerId) connectionId)).Attributed addressing
      (connectionId :: failures) establishments := by
  have hMono := h.mono (List.subset_cons_self connectionId failures) (List.Subset.refl establishments)
  rw [onSwarmEvent]
  split
  · rename_i hMem
    have hResolved : ∀ attempt ∈ self.journal.attempts, attempt.peerId = peerId →
        attempt.Resolved (connectionId :: failures) establishments := by
      intro attempt hAttempt hPeer
      by_cases hEq : attempt.connectionId = connectionId
      · exact .inl (hEq ▸ List.mem_cons_self)
      · obtain hFailed | hEstablished := hLast hMem attempt hAttempt hPeer hEq
        · exact .inl (List.mem_cons_of_mem connectionId hFailed)
        · exact .inr hEstablished
    apply hMono.wake _ _ hMem
    · intro _ waiters hLookup sender hSender
      obtain ⟨attempt, hAttempt, hOwn, hPeer, hOpen⟩ := hPursued peerId waiters hLookup sender hSender
      obtain hFailed | hEstablished := hResolved attempt hAttempt hPeer
      · exact ⟨attempt, hAttempt, hOwn, hFailed⟩
      · exact absurd (hPeer ▸ hEstablished) hOpen
    · intro other hEvent
      obtain rfl := Event.dialFailed.inj hEvent
      exact hResolved
  · exact hMono

end Behaviour

namespace Bridge

variable {addressing : Addressing PeerId Multiaddr} {queueDepth : Nat} {self : Bridge PeerId Multiaddr}

variable (addressing) in
def Attributed (bridge : Bridge PeerId Multiaddr) : Prop :=
  bridge.behaviour.Attributed addressing bridge.failures bridge.establishments

theorem attributed_connector : (connector queueDepth : Bridge PeerId Multiaddr).Attributed addressing := by
  constructor
  · intro answer hMem
    cases hMem
  · intro peerId hMem
    cases hMem

variable [DecidableEq PeerId]

/-- A failure that meets waiters is that of the last open attempt to its peer. -/
def LastOpen (bridge : Bridge PeerId Multiaddr) : Input PeerId → Prop
  | .swarm (.dialFailure (some peerId) connectionId) => peerId ∈ bridge.behaviour.waiters →
    ∀ attempt ∈ bridge.behaviour.journal.attempts, attempt.peerId = peerId →
      attempt.connectionId ≠ connectionId → attempt.Resolved bridge.failures bridge.establishments
  | _ => True

structure Tracked (bridge : Bridge PeerId Multiaddr) : Prop where
  pursued : bridge.behaviour.Pursued bridge.establishments
  drawn : ∀ established ∈ bridge.establishments, established.2 < bridge.connections

theorem Tracked.report (h : self.Tracked) (event : FromSwarm PeerId) :
    ∀ established ∈ (self.report event).establishments, established.2 < (self.report event).connections := by
  intro established hMem
  cases event with
  | connectionEstablished peerId connectionId =>
    obtain rfl | hMem := List.mem_cons.mp hMem
    · exact lt_max_of_lt_right (Nat.lt_succ_self connectionId)
    · exact lt_max_of_lt_left (h.drawn established hMem)
  | connectionClosed peerId connectionId remaining => exact lt_max_of_lt_left (h.drawn established hMem)
  | dialFailure peerId connectionId => exact lt_max_of_lt_left (h.drawn established hMem)
  | other => exact h.drawn established hMem

theorem Tracked.swarm (h : self.Tracked) (event : FromSwarm PeerId) :
    (self.behaviour.onSwarmEvent event).Pursued (self.report event).establishments := by
  cases event with
  | connectionEstablished peerId connectionId => exact h.pursued.established peerId connectionId
  | connectionClosed peerId connectionId remaining =>
    rw [Behaviour.onSwarmEvent]
    split
    · exact h.pursued
    · exact h.pursued
  | dialFailure peerId connectionId =>
    cases peerId with
    | none => exact h.pursued
    | some peerId =>
      rw [Behaviour.onSwarmEvent]
      split
      · exact h.pursued.resolve peerId false
      · exact h.pursued
  | other => exact h.pursued

theorem Tracked.step (h : self.Tracked) (input : Input PeerId) : (self.step addressing input).Tracked := by
  cases input with
  | connect peer =>
    rw [Bridge.step, connect]
    split
    · exact ⟨h.pursued, h.drawn⟩
    · exact h
  | timeout sender => exact ⟨h.pursued, h.drawn⟩
  | poll budget =>
    have hNew : ∀ peerId, (peerId, self.connections) ∉ self.establishments :=
      fun peerId hMem => lt_irrefl _ (h.drawn _ hMem)
    exact ⟨h.pursued.poll budget hNew, fun established hMem => Nat.lt_succ_of_lt (h.drawn established hMem)⟩
  | swarm event => exact ⟨h.swarm event, h.report event⟩

theorem tracked_run (inputs : List (Input PeerId)) : (run addressing queueDepth inputs).Tracked := by
  induction inputs using List.reverseRecOn with
  | nil =>
    refine ⟨fun peerId waiters hLookup => ?_, fun _ hMem => by cases hMem⟩
    cases hLookup
  | append_singleton inputs input ih =>
    rw [run_append]
    exact ih.step input

theorem Attributed.step (h : self.Attributed addressing) (hTracked : self.Tracked) {input : Input PeerId}
    (hLast : self.LastOpen input) : (self.step addressing input).Attributed addressing := by
  cases input with
  | connect peer =>
    rw [Bridge.step, connect]
    split
    · exact ⟨h.answers, h.events⟩
    · exact h
  | timeout sender => exact ⟨h.answers, h.events⟩
  | poll budget => exact Behaviour.Attributed.poll h budget self.connections
  | swarm event =>
    cases event with
    | connectionEstablished peerId connectionId =>
      exact (Behaviour.Attributed.established h peerId connectionId).mono (List.Subset.refl _)
        (List.subset_cons_self _ _)
    | connectionClosed peerId connectionId remaining =>
      rw [Bridge.step, Behaviour.onSwarmEvent]
      split
      · exact ⟨h.answers, h.events⟩
      · exact ⟨h.answers, h.events⟩
    | dialFailure peerId connectionId =>
      cases peerId with
      | none => exact Behaviour.Attributed.mono h (List.subset_cons_self _ _) (List.Subset.refl _)
      | some peerId => exact Behaviour.Attributed.dialFailure h hTracked.pursued hLast
    | other => exact h

theorem lastOpen_of_attributed {input : Input PeerId} (h : (self.step addressing input).Attributed addressing) :
    self.LastOpen input := by
  cases input with
  | connect peer => trivial
  | timeout sender => trivial
  | poll budget => trivial
  | swarm event =>
    cases event with
    | connectionEstablished peerId connectionId => trivial
    | connectionClosed peerId connectionId remaining => trivial
    | other => trivial
    | dialFailure peerId connectionId =>
      cases peerId with
      | none => trivial
      | some peerId =>
        intro hMem attempt hAttempt hPeer hOther
        obtain ⟨waiters, hLookup⟩ := Option.isSome_iff_exists.mp (AList.lookup_isSome.mpr hMem)
        have hEvents := h.events peerId
        rw [Bridge.step, Behaviour.onSwarmEvent, if_pos hMem, Behaviour.resolve_of_lookup hLookup] at hEvents
        obtain hFailed | hEstablished :=
          hEvents (List.mem_append_right _ (List.mem_singleton.mpr rfl)) attempt hAttempt hPeer
        · exact .inl ((List.mem_cons.mp hFailed).resolve_left hOther)
        · exact .inr hEstablished

/-- Outcomes are attributed to their own attempts in every state of a run exactly when every
failure that meets waiters is that of the last open attempt to its peer. -/
theorem attributed_iff_lastOpen (addressing : Addressing PeerId Multiaddr) (queueDepth : Nat)
    (inputs : List (Input PeerId)) :
    (∀ before, before <+: inputs → (run addressing queueDepth before).Attributed addressing) ↔
      ∀ before input, before ++ [input] <+: inputs → (run addressing queueDepth before).LastOpen input := by
  constructor
  · intro h before input hPrefix
    have hNext := h _ hPrefix
    rw [run_append] at hNext
    exact lastOpen_of_attributed hNext
  · intro h before hPrefix
    induction before using List.reverseRecOn with
    | nil => exact attributed_connector
    | append_singleton before input ih =>
      rw [run_append]
      exact (ih ((List.prefix_append before [input]).trans hPrefix)).step (tracked_run before) (h before input hPrefix)

/-- Two dials of one peer overlap; the second is refused by the swarm. -/
def overlappingDials : List (Input UInt8) :=
  [.connect (inlineCandidate 7), .poll 8, .poll 8, .connect (inlineCandidate 7), .poll 8,
    .swarm (.dialFailure (some 7) 2)]

/-- The refusal of attempt 2 answers the caller of attempt 0, which is still in progress. -/
theorem overlappingDials_misattributed :
    (∃ answer ∈ (run inlinePeers 8 overlappingDials).behaviour.journal.answers,
      answer.sender = 0 ∧ answer.dialed = false) ∧
    Attempt.mk 0 7 0 ∈ (run inlinePeers 8 overlappingDials).behaviour.journal.attempts ∧
    0 ∉ (run inlinePeers 8 overlappingDials).failures ∧
    (run inlinePeers 8 overlappingDials).establishments = [] ∧
    ToSwarm.generateEvent (.dialFailed 7) ∈ (run inlinePeers 8 overlappingDials).behaviour.queue ∧
    ¬ ∀ inputs, (run inlinePeers 8 inputs).Attributed inlinePeers := by
  have hQueue : ToSwarm.generateEvent (.dialFailed 7) ∈
      (run inlinePeers 8 overlappingDials).behaviour.queue := by decide
  have hAttempt : Attempt.mk 0 7 0 ∈ (run inlinePeers 8 overlappingDials).behaviour.journal.attempts := by
    decide
  have hOpen : 0 ∉ (run inlinePeers 8 overlappingDials).failures := by decide
  have hNone : (run inlinePeers 8 overlappingDials).establishments = [] := by decide
  refine ⟨by decide, hAttempt, hOpen, hNone, hQueue, fun h => ?_⟩
  obtain hFailed | hEstablished := (h overlappingDials).events 7 hQueue _ hAttempt rfl
  · exact hOpen hFailed
  · rw [hNone] at hEstablished
    cases hEstablished

end Bridge

end Resurrect.Libp2p
