import Resurrect.Node.HostBoard

/-! # Which abandoned waiters are pruned

A call whose own time is up prunes after itself. A call that is dropped does not:
if its request was sent and is unanswered, its sender stays with the event loop
until the dial resolves or some other call prunes. Where no call is dropped in
that interval, an idle host holds no waiter whose receiver is gone.
-/

namespace Resurrect.Node

open Resurrect.Core Libp2p Rendezvous

variable {PeerId Multiaddr : Type}

/-- Each queued dial is for a call that attends to it, or is followed by a prune. -/
def Covered (attended : Sender → Prop) : List Command → Prop
  | [] => True
  | .dial _ sender :: commands =>
    (attended sender ∨ .pruneDialWaiters ∈ commands) ∧ Covered attended commands
  | _ :: commands => Covered attended commands

section Queue

variable {attended : Sender → Prop}

theorem covered_cons {command : Command} {commands : List Command} : Covered attended (command :: commands) ↔
    (∀ sender ∈ command.caller, attended sender ∨ .pruneDialWaiters ∈ commands) ∧ Covered attended commands := by
  cases command <;> simp [Covered, Command.caller]

theorem covered_append {commands : List Command} {command : Command} (h : Covered attended commands)
    (hCaller : ∀ sender ∈ command.caller, attended sender) : Covered attended (commands ++ [command]) := by
  induction commands with
  | nil => exact covered_cons.mpr ⟨fun sender hSender => .inl (hCaller sender hSender), trivial⟩
  | cons first commands ih =>
    obtain ⟨hFirst, hRest⟩ := covered_cons.mp h
    refine covered_cons.mpr ⟨fun sender hSender => ?_, ih hRest⟩
    obtain hAttended | hPrune := hFirst sender hSender
    · exact .inl hAttended
    · exact .inr (List.mem_append_left _ hPrune)

theorem covered_prune (attended : Sender → Prop) (commands : List Command) :
    Covered attended (commands ++ [.pruneDialWaiters]) := by
  induction commands with
  | nil => exact trivial
  | cons first commands ih =>
    exact covered_cons.mpr ⟨fun _ _ => .inr (List.mem_append_right _ (List.mem_singleton.mpr rfl)), ih⟩

theorem Covered.mono {other : Sender → Prop} {commands : List Command} (h : Covered attended commands)
    (hMono : ∀ sender ∈ commands.filterMap Command.caller, attended sender → other sender) :
    Covered other commands := by
  induction commands with
  | nil => exact trivial
  | cons first commands ih =>
    obtain ⟨hFirst, hRest⟩ := covered_cons.mp h
    refine covered_cons.mpr ⟨fun sender hSender => ?_, ih hRest fun sender hMem => hMono sender ?_⟩
    · have hMem : sender ∈ (first :: commands).filterMap Command.caller :=
        List.mem_filterMap.mpr ⟨first, List.mem_cons_self, hSender⟩
      exact (hFirst sender hSender).imp_left (hMono sender hMem)
    · obtain ⟨command, hCommand, hCaller⟩ := List.mem_filterMap.mp hMem
      exact List.mem_filterMap.mpr ⟨command, List.mem_cons_of_mem first hCommand, hCaller⟩

end Queue

namespace EventLoop

variable {addressing : HostAddressing PeerId Multiaddr} {self : EventLoop PeerId Multiaddr}
variable {closed : Finset Sender} {waiter : Sender}

/-- The senders of all waiters. -/
def held (self : EventLoop PeerId Multiaddr) : List Sender := self.pending.entries.flatMap fun entry => entry.2

theorem held_board : (self.board addressing closed).held = self.held := rfl

variable [DecidableEq PeerId]

theorem held_complete {peerId : PeerId} {result : Except HostError Unit}
    (h : waiter ∈ (self.complete peerId result).held) : waiter ∈ self.held := by
  rw [complete] at h
  split at h
  · exact h
  · rw [foldl_send] at h
    obtain ⟨entry, hEntry, hMem⟩ := List.mem_flatMap.mp h
    exact List.mem_flatMap.mpr ⟨entry, (List.kerase_sublist _ _).subset hEntry, hMem⟩

theorem held_dial {peer : PeerCandidate} {sender : Sender} {dialed : Except String Unit}
    (h : waiter ∈ (self.dial addressing peer sender dialed).held) : waiter ∈ self.held ∨ waiter = sender := by
  obtain ⟨error, hEq⟩ | ⟨peerId, -, -, hEq⟩ | ⟨peerId, -, -, hEq⟩ :=
    @dial_cases _ _ addressing _ self peer sender dialed
  · rw [hEq] at h
    exact .inl h
  · rw [hEq] at h
    exact .inl h
  · rw [hEq] at h
    have hWait : waiter ∈ ((self.board addressing ∅).wait sender peerId).held := h
    exact Board.held_wait hWait

theorem held_handleCommand {dialed : Except String Unit} {command : Command}
    (h : waiter ∈ (self.handleCommand addressing closed dialed command).held) :
    (waiter ∈ self.held ∧ (command = .pruneDialWaiters → waiter ∉ closed)) ∨ command.caller = some waiter := by
  cases command with
  | dial peer sender =>
    obtain hHeld | rfl := held_dial h
    · exact .inl ⟨hHeld, fun hEq => by cases hEq⟩
    · exact .inr rfl
  | addVerified peer =>
    rw [handleCommand] at h
    refine .inl ⟨?_, fun hEq => by cases hEq⟩
    split at h <;> exact h
  | nativeCandidates sender => exact .inl ⟨h, fun hEq => by cases hEq⟩
  | pruneDialWaiters =>
    rw [handleCommand, ← @held_board _ _ addressing _ closed, board_pruneDialWaiters] at h
    obtain ⟨hHeld, hOpen⟩ := Board.held_prune h
    exact .inl ⟨hHeld, fun _ => hOpen⟩
  | shutdown sender => exact .inl ⟨h, fun hEq => by cases hEq⟩

variable [DecidableEq Multiaddr]

theorem held_handleSwarm {event : SwarmEvent PeerId Multiaddr}
    (h : waiter ∈ (self.handleSwarm addressing event).held) : waiter ∈ self.held := by
  cases event with
  | connectionEstablished peerId connectionId =>
    rw [handleSwarm] at h
    have hHeld := held_complete h
    exact hHeld
  | connectionClosed peerId connectionId numEstablished =>
    rw [handleSwarm] at h
    split at h <;> exact h
  | outgoingConnectionError peerId connectionId error =>
    cases peerId with
    | none => exact h
    | some peerId =>
      rw [handleSwarm] at h
      exact held_complete h
  | _ => exact h

end EventLoop

namespace DialHost

variable {addressing : HostAddressing PeerId Multiaddr} {self : DialHost PeerId Multiaddr} {call : Sender}

/-- A call that still waits for its answer, or is about to prune. -/
def Attended (host : DialHost PeerId Multiaddr) (call : Sender) : Prop :=
  host.phase call = .waiting ∨ host.phase call = .pruning

/-- Every waiter is attended to or about to be pruned. -/
structure Kept (host : DialHost PeerId Multiaddr) : Prop where
  listening : ∀ call ∉ host.closed, host.phase call = .unsent ∨ host.phase call = .waiting
  held : ∀ waiter ∈ host.eventLoop.held, host.Attended waiter ∨ .pruneDialWaiters ∈ host.eventLoop.commands
  queued : Covered host.Attended host.eventLoop.commands

/-- A dropped call is not dropped between sending its request and hearing of it. -/
def CleanDrop (host : DialHost PeerId Multiaddr) : HostInput PeerId Multiaddr → Prop
  | .drop call => call ∉ host.eventLoop.commands.filterMap Command.caller ∧ call ∉ host.eventLoop.held
  | _ => True

theorem attended_enter {phase : Phase} (hPhase : phase = .waiting ∨ phase = .pruning) {waiter : Sender}
    (h : self.Attended waiter) : (self.enter call phase).Attended waiter := by
  rw [Attended, phase_enter]
  split
  · exact hPhase
  · exact h

theorem attended_of_ne {phase : Phase} {waiter : Sender} (hNe : waiter ≠ call) (h : self.Attended waiter) :
    (self.enter call phase).Attended waiter := by
  rw [Attended, phase_enter, if_neg hNe]
  exact h

theorem listening_close (h : self.Kept) (phase : Phase) (waiter : Sender) (hOpen : waiter ∉ (self.close call phase).closed) :
    (self.close call phase).phase waiter = .unsent ∨ (self.close call phase).phase waiter = .waiting := by
  obtain ⟨hNe, hOpen⟩ := not_or.mp (mt Finset.mem_insert.mpr hOpen)
  have hPhase : (self.close call phase).phase waiter = self.phase waiter :=
    (phase_enter self call waiter phase).trans (if_neg hNe)
  rw [hPhase]
  exact h.listening waiter hOpen

/-- A call that nothing in the loop refers to may go on as it likes. -/
theorem Kept.close_of_clean (h : self.Kept) {phase : Phase}
    (hQueued : call ∉ self.eventLoop.commands.filterMap Command.caller) (hHeld : call ∉ self.eventLoop.held) :
    (self.close call phase).Kept where
  listening := listening_close h phase
  held waiter hMem := by
    have hNe : waiter ≠ call := fun hEq => hHeld (hEq ▸ hMem)
    exact (h.held waiter hMem).imp_left (attended_of_ne hNe)
  queued := by
    apply h.queued.mono
    intro sender hMem
    exact attended_of_ne fun hEq => hQueued (hEq ▸ hMem)

theorem Kept.expired (h : self.Kept) : (self.close call .pruning).Kept where
  listening := listening_close h .pruning
  held waiter hMem := (h.held waiter hMem).imp_left (attended_enter (.inr rfl))
  queued := h.queued.mono fun _ _ => attended_enter (.inr rfl)

theorem Kept.asked (h : self.Kept) {command : Command} (hCaller : command.caller = none) : (self.push command).Kept where
  listening := h.listening
  held waiter hMem := (h.held waiter hMem).imp_right (List.mem_append_left _)
  queued := by
    apply covered_append h.queued
    intro sender hSender
    rw [hCaller] at hSender
    cases hSender

theorem Kept.sent (h : self.Kept) (peer : PeerCandidate) :
    ((self.push (.dial peer call)).enter call .waiting).Kept where
  listening waiter hOpen := by
    rw [phase_enter]
    split
    · exact .inr rfl
    · exact h.listening waiter hOpen
  held waiter hMem := (h.held waiter hMem).imp (attended_enter (.inl rfl)) (List.mem_append_left _)
  queued := by
    apply covered_append (h.queued.mono fun _ _ => attended_enter (.inl rfl))
    intro sender hSender
    rw [← Option.some.inj hSender, Attended, phase_enter, if_pos rfl]
    exact .inl rfl

/-- The prune that a call sends covers the call itself. -/
theorem Kept.pruned (h : self.Kept) (hPruning : self.phase call = .pruning) :
    ((self.push .pruneDialWaiters).enter call (.returned false)).Kept where
  listening waiter hOpen := by
    rw [phase_enter]
    split
    · rename_i hEq
      rw [← hEq] at hPruning
      obtain hUnsent | hWaiting := h.listening waiter hOpen
      · rw [hUnsent] at hPruning
        cases hPruning
      · rw [hWaiting] at hPruning
        cases hPruning
    · exact h.listening waiter hOpen
  held _ _ := .inr (List.mem_append_right _ (List.mem_singleton.mpr rfl))
  queued := covered_prune _ _

theorem taken_board : (self.eventLoop.board addressing self.closed).taken.map Prod.fst =
    self.eventLoop.journal.taken.map DialRequest.outcome := by
  rw [EventLoop.board, List.map_map]
  rfl

variable [DecidableEq PeerId]

theorem Sound.sent_of_held (h : self.Sound addressing) {waiter : Sender} (hHeld : waiter ∈ self.eventLoop.held) :
    self.phase waiter ≠ .unsent := by
  apply h.sent
  have hBoard : waiter ∈ (self.eventLoop.board addressing self.closed).held := hHeld
  obtain ⟨key, hMem⟩ := Board.mem_held.mp hBoard
  have hTaken := List.mem_map_of_mem (f := Prod.fst) (h.consistent.own key waiter hMem)
  rw [taken_board] at hTaken
  exact List.mem_append_left _ hTaken

/-- An answered call is referred to by nothing in the loop. -/
theorem Sound.clean_of_answer (h : self.Sound addressing) {result : Except HostError Unit}
    (hAnswer : self.answerOf call = some result) :
    call ∉ self.eventLoop.commands.filterMap Command.caller ∧ call ∉ self.eventLoop.held := by
  obtain ⟨answer, hFound, -⟩ := Option.map_eq_some_iff.mp hAnswer
  have hMem := List.mem_map_of_mem (f := HostAnswer.answer) (List.mem_of_find?_eq_some hFound)
  have hSender : answer.sender = call := by simpa using List.find?_some hFound
  have hTaken := h.consistent.answered_taken _ hMem
  rw [taken_board] at hTaken
  rw [← hSender]
  exact ⟨List.disjoint_of_nodup_append h.distinct hTaken, not_held_of_answered h.consistent hMem⟩

theorem Kept.handled (h : self.Kept) (hSound : self.Sound addressing) {command : Command} {commands : List Command}
    (hCommands : self.eventLoop.commands = command :: commands) (dialed : Except String Unit) :
    (self.handle addressing dialed command commands).Kept := by
  have hRest : (self.handle addressing dialed command commands).eventLoop.commands = commands :=
    EventLoop.commands_handleCommand dialed command
  have hQueued := h.queued
  rw [hCommands, covered_cons] at hQueued
  refine ⟨h.listening, fun waiter hMem => ?_, hRest.symm ▸ hQueued.2⟩
  rw [hRest]
  obtain ⟨hHeld, hPruned⟩ | hCaller := EventLoop.held_handleCommand hMem
  · obtain hAttended | hPrune := h.held waiter hHeld
    · exact .inl hAttended
    · rw [hCommands] at hPrune
      obtain hHead | hPrune := List.mem_cons.mp hPrune
      · obtain hUnsent | hWaiting := h.listening waiter (hPruned hHead.symm)
        · exact absurd hUnsent (hSound.sent_of_held hHeld)
        · exact .inl (.inl hWaiting)
      · exact .inr hPrune
  · exact hQueued.1 waiter hCaller

variable [DecidableEq Multiaddr]

theorem HostStep.kept {input : HostInput PeerId Multiaddr} {next : DialHost PeerId Multiaddr}
    (hStep : HostStep addressing self input next) (hRunning : next.running = true) (hSound : self.Sound addressing)
    (hClean : self.CleanDrop input) (h : self.running = true → self.Kept) : next.Kept := by
  cases hStep with
  | idle => exact h hRunning
  | asked hCaller => exact (h hRunning).asked hCaller
  | sent => exact (h hRunning).sent _
  | refused hStopped => exact absurd hRunning (Bool.eq_false_iff.mp hStopped)
  | delivered hAnswer =>
    obtain ⟨hQueued, hHeld⟩ := hSound.clean_of_answer hAnswer
    exact (h hRunning).close_of_clean hQueued hHeld
  | abandoned hStopped => exact absurd hRunning (Bool.eq_false_iff.mp hStopped)
  | expired => exact (h hRunning).expired
  | pruned hPruning => exact (h hRunning).pruned hPruning
  | forgotten hStopped => exact absurd hRunning (Bool.eq_false_iff.mp hStopped)
  | dropped => exact (h hRunning).close_of_clean hClean.1 hClean.2
  | hungUp => cases hRunning
  | stopped => cases hRunning
  | handled _ hCommands => exact (h hRunning).handled hSound hCommands _
  | @swarm event =>
    obtain ⟨-, hCommands⟩ := @EventLoop.intake_handleSwarm _ _ addressing self.eventLoop _ _ event
    obtain ⟨hListening, hHeld, hQueued⟩ := h hRunning
    refine ⟨hListening, fun waiter hMem => ?_, hCommands.symm ▸ hQueued⟩
    rw [hCommands]
    exact hHeld waiter (EventLoop.held_handleSwarm hMem)

theorem kept_start (localPeerId : PeerId) (configuredPeers : List (PeerId × Multiaddr)) :
    (start addressing localPeerId configuredPeers).Kept := by
  constructor
  · exact fun _ _ => .inl rfl
  · intro waiter hMem
    cases hMem
  · trivial

theorem kept_run {localPeerId : PeerId} {configuredPeers : List (PeerId × Multiaddr)}
    {inputs : List (HostInput PeerId Multiaddr)}
    (hClean : ∀ before input, before ++ [input] <+: inputs →
      (run addressing localPeerId configuredPeers before).CleanDrop input)
    (hRunning : (run addressing localPeerId configuredPeers inputs).running = true) :
    (run addressing localPeerId configuredPeers inputs).Kept := by
  induction inputs using List.reverseRecOn with
  | nil => exact kept_start localPeerId configuredPeers
  | append_singleton inputs input ih =>
    rw [run_append] at hRunning ⊢
    apply (hostStep _ input).kept hRunning (sound_run localPeerId configuredPeers inputs)
    · exact hClean inputs input List.prefix_rfl
    · apply ih
      intro before other hPrefix
      exact hClean before other (hPrefix.trans (List.prefix_append inputs [input]))

/-- Where no call is dropped between its request and its answer, a host whose calls have ended
and whose queue is empty holds no waiter whose receiver is gone. -/
theorem no_abandoned_waiter (addressing : HostAddressing PeerId Multiaddr) (localPeerId : PeerId)
    (configuredPeers : List (PeerId × Multiaddr)) (inputs : List (HostInput PeerId Multiaddr))
    (hClean : ∀ before input, before ++ [input] <+: inputs →
      (run addressing localPeerId configuredPeers before).CleanDrop input) :
    ∀ state, state <+: inputs →
      let host := run addressing localPeerId configuredPeers state
      host.running = true → (∀ call, host.phase call ≠ .waiting ∧ host.phase call ≠ .pruning) →
      host.eventLoop.commands = [] → ∀ waiter ∈ host.eventLoop.held, waiter ∉ host.closed := by
  intro state hState host hRunning hEnded hDrained waiter hMem
  have hKept : host.Kept := by
    apply kept_run _ hRunning
    intro before input hPrefix
    exact hClean before input (hPrefix.trans hState)
  obtain hAttended | hPrune := hKept.held waiter hMem
  · obtain hWaiting | hPruning := hAttended
    · exact absurd hWaiting (hEnded waiter).1
    · exact absurd hPruning (hEnded waiter).2
  · rw [hDrained] at hPrune
    cases hPrune

/-- A call that times out on its own prunes after itself. -/
theorem no_abandoned_waiter_expired :
    let host := run inlineHost 3 [] [.send 0 (inlineCandidate 7), .command (.ok ()), .expire 0, .prune 0,
      .command (.ok ())]
    0 ∈ host.closed ∧ ∀ waiter ∈ host.eventLoop.held, waiter ∉ host.closed := by
  refine ⟨by decide, no_abandoned_waiter inlineHost 3 [] _ ?_ _ List.prefix_rfl (by decide) ?_
    (by decide)⟩
  · intro before input hPrefix
    have hMem := hPrefix.subset (List.mem_append_right before (List.mem_singleton.mpr rfl))
    simp only [List.mem_cons, List.not_mem_nil, or_false] at hMem
    obtain rfl | rfl | rfl | rfl | rfl := hMem <;> trivial
  · intro call
    cases call with
    | zero => decide
    | succ call => exact ⟨Phase.noConfusion, Phase.noConfusion⟩

/-- The timer around a call fires first: its future is dropped while it waits. -/
def droppedDial : List (HostInput UInt8 String) :=
  [.send 0 (inlineCandidate 7), .command (.ok ()), .drop 0]

theorem droppedDial_abandons :
    0 ∈ (run inlineHost 3 [] droppedDial).eventLoop.held ∧ 0 ∈ (run inlineHost 3 [] droppedDial).closed ∧
    ¬ ∀ inputs,
      let host := run inlineHost 3 [] inputs
      host.running = true → (∀ call, host.phase call ≠ .waiting ∧ host.phase call ≠ .pruning) →
      host.eventLoop.commands = [] → ∀ waiter ∈ host.eventLoop.held, waiter ∉ host.closed := by
  have hHeld : 0 ∈ (run inlineHost 3 [] droppedDial).eventLoop.held := by decide
  have hClosed : 0 ∈ (run inlineHost 3 [] droppedDial).closed := by decide
  refine ⟨hHeld, hClosed, fun h => h droppedDial (by decide) ?_ (by decide +kernel) 0 hHeld hClosed⟩
  intro call
  cases call with
  | zero => decide
  | succ call => exact ⟨Phase.noConfusion, Phase.noConfusion⟩

end DialHost

end Resurrect.Node
