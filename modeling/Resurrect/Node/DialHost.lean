import Resurrect.Node.EventLoop

/-! # The host and its dialing callers

A `DialHost` is an event loop with the `connect` calls of its handles. A call sends
its request, waits for the answer, and prunes when its time is up; it can be
dropped wherever it waits. The order of all this and of the swarm's events is free.
-/

namespace Resurrect.Node

open Resurrect.Core Libp2p

/-- The call whose dial a command asks for. -/
def Command.caller : Command → Option Sender
  | .dial _ sender => some sender
  | _ => none

/-- Where a `connect` call is: `unsent` until the command channel had room for it. -/
inductive Phase where
  | unsent
  | waiting
  | pruning
  | returned (dialed : Bool)
  | dropped
  deriving DecidableEq, Repr

inductive HostInput (PeerId Multiaddr : Type) where
  | send (call : Sender) (peer : PeerCandidate)
  | deliver (call : Sender)
  | expire (call : Sender)
  | prune (call : Sender)
  | drop (call : Sender)
  | addVerified (peer : PeerCandidate)
  | nativeCandidates (sender : Sender)
  | shutdown (sender : Sender)
  | hangUp
  | command (dialed : Except String Unit)
  | swarm (event : SwarmEvent PeerId Multiaddr)

/-- An event loop, as long as it runs, and its callers; `closed` are the calls whose
receiver is gone. -/
structure DialHost (PeerId Multiaddr : Type) where
  eventLoop : EventLoop PeerId Multiaddr
  running : Bool
  phase : Sender → Phase
  closed : Finset Sender

namespace DialHost

variable {PeerId Multiaddr : Type}

/-- The capacity of the command channel. -/
def commandCapacity : Nat := 64

def enter (self : DialHost PeerId Multiaddr) (call : Sender) (phase : Phase) : DialHost PeerId Multiaddr :=
  { self with phase := Function.update self.phase call phase }

theorem phase_enter (self : DialHost PeerId Multiaddr) (call other : Sender) (phase : Phase) :
    (self.enter call phase).phase other = if other = call then phase else self.phase other :=
  Function.update_apply _ _ _ _

/-- A call goes on without its receiver. -/
def close (self : DialHost PeerId Multiaddr) (call : Sender) (phase : Phase) : DialHost PeerId Multiaddr :=
  { self.enter call phase with closed := insert call self.closed }

/-- A command joins the channel, if the loop runs and there is room. -/
def push (self : DialHost PeerId Multiaddr) (command : Command) : DialHost PeerId Multiaddr :=
  { self with eventLoop := { self.eventLoop with commands := self.eventLoop.commands ++ [command] } }

def HasRoom (self : DialHost PeerId Multiaddr) : Prop :=
  self.running = true ∧ self.eventLoop.commands.length < commandCapacity

instance decidableHasRoom (self : DialHost PeerId Multiaddr) : Decidable self.HasRoom :=
  inferInstanceAs (Decidable (_ ∧ _))

def answerOf (self : DialHost PeerId Multiaddr) (call : Sender) : Option (Except HostError Unit) :=
  (self.eventLoop.journal.answers.find? fun answer => answer.sender = call).map HostAnswer.result

def send (self : DialHost PeerId Multiaddr) (call : Sender) (peer : PeerCandidate) : DialHost PeerId Multiaddr :=
  if self.phase call ≠ .unsent then self
  else if self.running = false then self.close call (.returned false)
  else if self.HasRoom then (self.push (.dial peer call)).enter call .waiting
  else self

def deliver (self : DialHost PeerId Multiaddr) (call : Sender) : DialHost PeerId Multiaddr :=
  if self.phase call ≠ .waiting then self
  else match self.answerOf call with
    | some result => self.close call (.returned result.isOk)
    | none => if self.running = false then self.close call (.returned false) else self

/-- The time of a call without an answer is up: its receiver is dropped. -/
def expire (self : DialHost PeerId Multiaddr) (call : Sender) : DialHost PeerId Multiaddr :=
  if self.phase call = .waiting ∧ self.answerOf call = none then self.close call .pruning else self

def prune (self : DialHost PeerId Multiaddr) (call : Sender) : DialHost PeerId Multiaddr :=
  if self.phase call ≠ .pruning then self
  else if self.running = false then self.enter call (.returned false)
  else if self.HasRoom then (self.push .pruneDialWaiters).enter call (.returned false)
  else self

def drop (self : DialHost PeerId Multiaddr) (call : Sender) : DialHost PeerId Multiaddr :=
  match self.phase call with
  | .unsent | .waiting | .pruning => self.close call .dropped
  | .returned _ | .dropped => self

variable [DecidableEq PeerId] [DecidableEq Multiaddr] (addressing : HostAddressing PeerId Multiaddr)

def handle (self : DialHost PeerId Multiaddr) (dialed : Except String Unit) (command : Command)
    (commands : List Command) : DialHost PeerId Multiaddr :=
  { self with
    eventLoop := ({ self.eventLoop with commands } : EventLoop PeerId Multiaddr).handleCommand addressing
      self.closed dialed command }

/-- One turn of the loop for the next command. -/
def command (self : DialHost PeerId Multiaddr) (dialed : Except String Unit) : DialHost PeerId Multiaddr :=
  if self.running = false then self
  else match self.eventLoop.commands with
    | [] => self
    | .shutdown _ :: commands => { self with running := false, eventLoop := { self.eventLoop with commands } }
    | command :: commands => self.handle addressing dialed command commands

def step (self : DialHost PeerId Multiaddr) : HostInput PeerId Multiaddr → DialHost PeerId Multiaddr
  | .send call peer => self.send call peer
  | .deliver call => self.deliver call
  | .expire call => self.expire call
  | .prune call => self.prune call
  | .drop call => self.drop call
  | .addVerified peer => if self.HasRoom then self.push (.addVerified peer) else self
  | .nativeCandidates sender => if self.HasRoom then self.push (.nativeCandidates sender) else self
  | .shutdown sender => if self.HasRoom then self.push (.shutdown sender) else self
  | .hangUp => if self.eventLoop.commands = [] then { self with running := false } else self
  | .command dialed => self.command addressing dialed
  | .swarm event =>
    if self.running = false then self
    else { self with eventLoop := self.eventLoop.handleSwarm addressing event }

def start (localPeerId : PeerId) (configuredPeers : List (PeerId × Multiaddr)) : DialHost PeerId Multiaddr where
  eventLoop := .new addressing localPeerId configuredPeers
  running := true
  phase := fun _ => .unsent
  closed := ∅

def run (localPeerId : PeerId) (configuredPeers : List (PeerId × Multiaddr))
    (inputs : List (HostInput PeerId Multiaddr)) : DialHost PeerId Multiaddr :=
  inputs.foldl (step addressing) (start addressing localPeerId configuredPeers)

variable {addressing} {self : DialHost PeerId Multiaddr}

/-- What one input can do to a host. -/
inductive HostStep (addressing : HostAddressing PeerId Multiaddr) (self : DialHost PeerId Multiaddr) :
    HostInput PeerId Multiaddr → DialHost PeerId Multiaddr → Prop
  | idle {input : HostInput PeerId Multiaddr} (hSwarm : ∀ event, input = .swarm event → self.running = false) :
      HostStep addressing self input self
  | asked {input : HostInput PeerId Multiaddr} {command : Command} (hCaller : command.caller = none)
      (hSwarm : ∀ event, input ≠ .swarm event) : HostStep addressing self input (self.push command)
  | sent {call : Sender} {peer : PeerCandidate} (hUnsent : self.phase call = .unsent) :
      HostStep addressing self (.send call peer) ((self.push (.dial peer call)).enter call .waiting)
  | refused {call : Sender} {peer : PeerCandidate} (hStopped : self.running = false) :
      HostStep addressing self (.send call peer) (self.close call (.returned false))
  | delivered {call : Sender} {result : Except HostError Unit} (hAnswer : self.answerOf call = some result) :
      HostStep addressing self (.deliver call) (self.close call (.returned result.isOk))
  | abandoned {call : Sender} (hStopped : self.running = false) :
      HostStep addressing self (.deliver call) (self.close call (.returned false))
  | expired {call : Sender} (hWaiting : self.phase call = .waiting) :
      HostStep addressing self (.expire call) (self.close call .pruning)
  | pruned {call : Sender} (hPruning : self.phase call = .pruning) :
      HostStep addressing self (.prune call) ((self.push .pruneDialWaiters).enter call (.returned false))
  | forgotten {call : Sender} (hStopped : self.running = false) :
      HostStep addressing self (.prune call) (self.enter call (.returned false))
  | dropped {call : Sender} : HostStep addressing self (.drop call) (self.close call .dropped)
  | hungUp : HostStep addressing self .hangUp { self with running := false }
  | stopped {dialed : Except String Unit} {sender : Sender} {commands : List Command}
      (hCommands : self.eventLoop.commands = .shutdown sender :: commands) :
      HostStep addressing self (.command dialed)
        { self with running := false, eventLoop := { self.eventLoop with commands } }
  | handled {dialed : Except String Unit} {command : Command} {commands : List Command}
      (hRunning : self.running = true) (hCommands : self.eventLoop.commands = command :: commands) :
      HostStep addressing self (.command dialed) (self.handle addressing dialed command commands)
  | swarm {event : SwarmEvent PeerId Multiaddr} (hRunning : self.running = true) :
      HostStep addressing self (.swarm event)
        { self with eventLoop := self.eventLoop.handleSwarm addressing event }

theorem hostStep_push {input : HostInput PeerId Multiaddr} {command : Command} (hCaller : command.caller = none)
    (hSwarm : ∀ event, input ≠ .swarm event) :
    HostStep addressing self input (if self.HasRoom then self.push command else self) := by
  split
  · exact .asked hCaller hSwarm
  · exact .idle fun event hEq => absurd hEq (hSwarm event)

theorem hostStep_send (call : Sender) (peer : PeerCandidate) :
    HostStep addressing self (.send call peer) (self.send call peer) := by
  rw [send]
  split
  · exact .idle nofun
  rename_i hUnsent
  split
  · rename_i hStopped
    exact .refused hStopped
  split
  · exact .sent (not_not.mp hUnsent)
  · exact .idle nofun

theorem hostStep_deliver (call : Sender) : HostStep addressing self (.deliver call) (self.deliver call) := by
  rw [deliver]
  split
  · exact .idle nofun
  split
  · rename_i result hAnswer
    exact .delivered hAnswer
  split
  · rename_i hStopped
    exact .abandoned hStopped
  · exact .idle nofun

theorem hostStep_prune (call : Sender) : HostStep addressing self (.prune call) (self.prune call) := by
  rw [prune]
  split
  · exact .idle nofun
  rename_i hPruning
  split
  · rename_i hStopped
    exact .forgotten hStopped
  split
  · exact .pruned (not_not.mp hPruning)
  · exact .idle nofun

theorem hostStep_command (dialed : Except String Unit) :
    HostStep addressing self (.command dialed) (self.command addressing dialed) := by
  rw [command]
  split
  · exact .idle nofun
  rename_i hRunning
  split
  · exact .idle nofun
  · rename_i sender commands hCommands
    exact .stopped hCommands
  · rename_i command commands _ hCommands
    exact .handled (Bool.eq_true_of_not_eq_false hRunning) hCommands

theorem hostStep (self : DialHost PeerId Multiaddr) (input : HostInput PeerId Multiaddr) :
    HostStep addressing self input (self.step addressing input) := by
  cases input with
  | send call peer => exact hostStep_send call peer
  | deliver call => exact hostStep_deliver call
  | expire call =>
    rw [step, expire]
    split
    · rename_i hWaiting
      exact .expired hWaiting.1
    · exact .idle nofun
  | prune call => exact hostStep_prune call
  | drop call =>
    rw [step, drop]
    split
    · exact .dropped
    · exact .dropped
    · exact .dropped
    · exact .idle nofun
    · exact .idle nofun
  | addVerified peer => exact hostStep_push rfl nofun
  | nativeCandidates sender => exact hostStep_push rfl nofun
  | shutdown sender => exact hostStep_push rfl nofun
  | hangUp =>
    rw [step]
    split
    · exact .hungUp
    · exact .idle nofun
  | command dialed => exact hostStep_command dialed
  | swarm event =>
    rw [step]
    split
    · rename_i hStopped
      exact .idle fun _ _ => hStopped
    · rename_i hRunning
      exact .swarm (Bool.eq_true_of_not_eq_false hRunning)

theorem run_append (localPeerId : PeerId) (configuredPeers : List (PeerId × Multiaddr))
    (inputs : List (HostInput PeerId Multiaddr)) (input : HostInput PeerId Multiaddr) :
    run addressing localPeerId configuredPeers (inputs ++ [input]) =
      (run addressing localPeerId configuredPeers inputs).step addressing input :=
  List.foldl_append

end DialHost

end Resurrect.Node
