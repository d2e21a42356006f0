import Resurrect.Browser.PeerRecord
import Resurrect.Foundation.Handler

/-! # Probing an announced peer

`probePeer` as a program over a libp2p node of its own: what the node is told, and
that it is stopped again, once and last, unless the probe succeeds. Durations are
left out.
-/

namespace Resurrect.Explorer

open Hex Interaction Browser

/-- The record packages, with the text of what the address parser throws, and how an address gets a peer. -/
structure ProbeLibrary extends RecordLibrary where
  parse : String → Except String Multiaddr
  encapsulate : Multiaddr → String → Except String Multiaddr

structure Identified where
  peerId : String
  agentVersion : Option String
  protocolVersion : Option String
  protocols : List String
  deriving DecidableEq, Repr

structure PeerProbeResult where
  peerId : String
  endpoint : String
  agentVersion : Option String
  protocolVersion : Option String
  protocols : List String
  deriving DecidableEq, Repr

/-- The ping and the identify request are under way together, and the first to fail fails both. -/
inductive NodeQuery (Multiaddr : Type) where
  | createLibp2p
  | start
  | dial (target : Multiaddr)
  | pingAndIdentify (remotePeer : String)
  | stop

/-- A dial is answered by the peer that the connection is authenticated as. -/
abbrev Libp2pNode (Multiaddr : Type) : Interface where
  Query := NodeQuery Multiaddr
  Answer
    | .createLibp2p => Except String Unit
    | .start => Except String Unit
    | .dial _ => Except String String
    | .pingAndIdentify _ => Except String Identified
    | .stop => Except String Unit

variable (library : ProbeLibrary)

abbrev ProbeM := ExceptT String (Prog (Libp2pNode library.Multiaddr))

def createLibp2p : ProbeM library Unit := attempt id (Prog.ask (I := Libp2pNode library.Multiaddr) .createLibp2p)
def start : ProbeM library Unit := attempt id (Prog.ask (I := Libp2pNode library.Multiaddr) .start)
def dial (target : library.Multiaddr) : ProbeM library String :=
  attempt id (Prog.ask (I := Libp2pNode library.Multiaddr) (.dial target))
def pingAndIdentify (remotePeer : String) : ProbeM library Identified :=
  attempt id (Prog.ask (I := Libp2pNode library.Multiaddr) (.pingAndIdentify remotePeer))
def stop : ProbeM library Unit := attempt id (Prog.ask (I := Libp2pNode library.Multiaddr) .stop)

def peerQualifiedAddress (endpoint expectedPeerId : String) : Except String library.Multiaddr := do
  let address ← library.parse endpoint
  match ((library.getComponents address).find? fun component => component.name = "p2p").bind Component.value with
  | some embeddedPeer =>
      if embeddedPeer ≠ expectedPeerId then .error "signed endpoint peer ID does not match the signed record identity"
      else .ok address
  | none => library.encapsulate address ("/p2p/" ++ expectedPeerId)

def probeResult (target : library.Multiaddr) (peerId : String) (identified : Identified) : PeerProbeResult where
  peerId := peerId
  endpoint := library.toString target
  agentVersion := identified.agentVersion
  protocolVersion := identified.protocolVersion
  protocols := identified.protocols.insertionSort fun a b => utf16 a ≤ utf16 b

/-- What is tried with the node. -/
def probeTarget (target : library.Multiaddr) (peerId : String) : ProbeM library PeerProbeResult := do
  start library
  let remotePeer ← dial library target
  if remotePeer ≠ peerId then throw "connected peer identity does not match the signed registry record"
  else do
    let identified ← pingAndIdentify library remotePeer
    if identified.peerId ≠ peerId then throw "identify response does not match the signed registry record"
    else pure (probeResult library target peerId identified)

/-- A session is the result together with the running node, which its `close` stops. -/
def probePeer (candidate : BrowserPeerCandidate) : ProbeM library PeerProbeResult :=
  match candidate.endpoints[0]? with
  | none => throw "candidate has no browser endpoint"
  | some endpoint => do
      let target ← decided (peerQualifiedAddress library endpoint candidate.peerId)
      createLibp2p library
      tryCatch (probeTarget library target candidate.peerId) fun error => do
        stop library
        throw error

section Runs

variable {library} {trace : List (Event (Libp2pNode library.Multiaddr))}

section Calls

variable {target : library.Multiaddr} {peerId message : String} {nothing : Unit}

theorem returns_createLibp2p : Returns (createLibp2p library) trace nothing ↔ trace = [⟨.createLibp2p, .ok ()⟩] := by
  rw [createLibp2p, returns_attempt]
  exact Prog.runs_ask

theorem throws_createLibp2p : Throws (createLibp2p library) trace message ↔
    trace = [⟨.createLibp2p, .error message⟩] := by
  rw [createLibp2p, throws_attempt]
  simp only [id, exists_eq_right']
  exact Prog.runs_ask

theorem returns_start : Returns (start library) trace nothing ↔ trace = [⟨.start, .ok ()⟩] := by
  rw [start, returns_attempt]
  exact Prog.runs_ask

theorem returns_dial {remotePeer : String} :
    Returns (dial library target) trace remotePeer ↔ trace = [⟨.dial target, .ok remotePeer⟩] := by
  rw [dial, returns_attempt]
  exact Prog.runs_ask

theorem returns_pingAndIdentify {identified : Identified} :
    Returns (pingAndIdentify library peerId) trace identified ↔
      trace = [⟨.pingAndIdentify peerId, .ok identified⟩] := by
  rw [pingAndIdentify, returns_attempt]
  exact Prog.runs_ask

theorem returns_stop : Returns (stop library) trace nothing ↔ trace = [⟨.stop, .ok ()⟩] := by
  rw [stop, returns_attempt]
  exact Prog.runs_ask

theorem throws_stop : Throws (stop library) trace message ↔ trace = [⟨.stop, .error message⟩] := by
  rw [stop, throws_attempt]
  simp only [id, exists_eq_right']
  exact Prog.runs_ask

end Calls

/-- The exchange of a probe that succeeds. -/
def exchange (target : library.Multiaddr) (peerId : String) (identified : Identified) :
    List (Event (Libp2pNode library.Multiaddr)) :=
  [⟨.start, .ok ()⟩, ⟨.dial target, .ok peerId⟩, ⟨.pingAndIdentify peerId, .ok identified⟩]

theorem returns_probeTarget {target : library.Multiaddr} {peerId : String} {result : PeerProbeResult} :
    Returns (probeTarget library target peerId) trace result ↔ ∃ identified, identified.peerId = peerId ∧
      trace = exchange target peerId identified ∧ result = probeResult library target peerId identified := by
  simp only [probeTarget, returns_bind, returns_start, returns_dial]
  constructor
  · rintro ⟨_, _, _, rfl, rfl, _, remotePeer, _, rfl, rfl, hRest⟩
    split at hRest
    · exact absurd hRest returns_throw
    rename_i hRemote
    rw [not_not] at hRemote
    subst hRemote
    obtain ⟨_, identified, _, rfl, hAsked, hResult⟩ := returns_bind.mp hRest
    obtain rfl := returns_pingAndIdentify.mp hAsked
    split at hResult
    · exact absurd hResult returns_throw
    rename_i hIdentified
    obtain ⟨rfl, rfl⟩ := returns_pure.mp hResult
    exact ⟨identified, not_not.mp hIdentified, rfl, rfl⟩
  · rintro ⟨identified, rfl, rfl, rfl⟩
    refine ⟨_, (), _, rfl, rfl, _, identified.peerId, _, rfl, rfl, ?_⟩
    rw [if_neg (not_not.mpr rfl), returns_bind]
    refine ⟨_, identified, [], rfl, returns_pingAndIdentify.mpr rfl, ?_⟩
    rw [if_neg (not_not.mpr rfl)]
    exact returns_pure.mpr ⟨rfl, rfl⟩

def Tries {Multiaddr : Type} : NodeQuery Multiaddr → Prop
  | .createLibp2p => False
  | .stop => False
  | _ => True

theorem tries_probeTarget (target : library.Multiaddr) (peerId : String) :
    (probeTarget library target peerId).run.Asks Tries := by
  refine asks_run_bind (asks_attempt (Prog.asks_ask trivial)) fun _ => ?_
  refine asks_run_bind (asks_attempt (Prog.asks_ask trivial)) fun remotePeer => ?_
  split
  · exact Prog.asks_pure _
  refine asks_run_bind (asks_attempt (Prog.asks_ask trivial)) fun identified => ?_
  split
  · exact Prog.asks_pure _
  · exact Prog.asks_pure _

/-- A probe that throws has created no node, or stopped the one that it tried. -/
theorem throws_probePeer {candidate : BrowserPeerCandidate} {message : String}
    (h : Throws (probePeer library candidate) trace message) :
    trace = [] ∨ (∃ error, trace = [⟨.createLibp2p, .error error⟩]) ∨
      ∃ tried answer, trace = ⟨.createLibp2p, .ok ()⟩ :: tried ++ [⟨.stop, answer⟩] ∧ ∀ event ∈ tried,
        Tries event.query := by
  rw [probePeer] at h
  split at h
  · exact .inl (throws_throw.mp h).1
  obtain hDecided | ⟨_, target, _, rfl, hDecided, hRest⟩ := throws_bind.mp h
  · exact .inl hDecided.1
  obtain ⟨rfl, -⟩ := returns_decided.mp hDecided
  obtain hCreate | ⟨_, _, _, rfl, hCreate, hTried⟩ := throws_bind.mp hRest
  · exact .inr (.inl ⟨message, throws_createLibp2p.mp hCreate⟩)
  obtain rfl := returns_createLibp2p.mp hCreate
  obtain ⟨tried, thrown, _, rfl, hThrown, hHandler⟩ := throws_tryCatch.mp hTried
  refine .inr (.inr ⟨tried, ?_⟩)
  have hTries := (tries_probeTarget target candidate.peerId).runs hThrown
  obtain hStop | ⟨_, _, _, rfl, hStop, hAgain⟩ := throws_bind.mp hHandler
  · exact ⟨.error message, by rw [throws_stop.mp hStop]; rfl, hTries⟩
  · obtain ⟨rfl, -⟩ := throws_throw.mp hAgain
    exact ⟨.ok (), by rw [returns_stop.mp hStop]; rfl, hTries⟩

/-- A probe that succeeds has dialled the first endpoint under the announced identity, was connected to that peer, got
its ping back and was told the same identity; its node is not stopped. -/
theorem returns_probePeer {candidate : BrowserPeerCandidate} {result : PeerProbeResult} :
    Returns (probePeer library candidate) trace result ↔ ∃ endpoint target identified,
      candidate.endpoints[0]? = some endpoint ∧ peerQualifiedAddress library endpoint candidate.peerId = .ok target ∧
      identified.peerId = candidate.peerId ∧
      trace = ⟨.createLibp2p, .ok ()⟩ :: exchange target candidate.peerId identified ∧
      result = probeResult library target candidate.peerId identified := by
  rw [probePeer]
  constructor
  · intro h
    split at h
    · exact absurd h returns_throw
    rename_i endpoint hEndpoint
    obtain ⟨_, target, _, rfl, hDecided, hRest⟩ := returns_bind.mp h
    obtain ⟨rfl, hTarget⟩ := returns_decided.mp hDecided
    obtain ⟨_, _, _, rfl, hCreate, hTried⟩ := returns_bind.mp hRest
    obtain rfl := returns_createLibp2p.mp hCreate
    obtain hTried | ⟨_, _, _, rfl, -, hHandler⟩ := returns_tryCatch.mp hTried
    · obtain ⟨identified, hIdentified, rfl, rfl⟩ := returns_probeTarget.mp hTried
      exact ⟨endpoint, target, identified, hEndpoint, hTarget, hIdentified, rfl, rfl⟩
    · obtain ⟨_, _, _, rfl, -, hThrown⟩ := returns_bind.mp hHandler
      exact absurd hThrown returns_throw
  · rintro ⟨endpoint, target, identified, hEndpoint, hTarget, hIdentified, rfl, rfl⟩
    rw [hEndpoint]
    refine returns_bind.mpr ⟨[], target, _, rfl, returns_decided.mpr ⟨rfl, hTarget⟩, ?_⟩
    refine returns_bind.mpr ⟨_, (), _, rfl, returns_createLibp2p.mpr rfl, ?_⟩
    exact returns_tryCatch.mpr (.inl (returns_probeTarget.mpr ⟨identified, hIdentified, rfl, rfl⟩))

end Runs

section Nodes

variable {Multiaddr : Type}

def created : Event (Libp2pNode Multiaddr) → Bool
  | ⟨.createLibp2p, .ok _⟩ => true
  | _ => false

def stopped : Event (Libp2pNode Multiaddr) → Bool
  | ⟨.stop, _⟩ => true
  | _ => false

theorem not_created_of_tries {event : Event (Libp2pNode Multiaddr)} (h : Tries event.query) :
    ¬ created event ∧ ¬ stopped event := by
  obtain ⟨query, answer⟩ := event
  cases query with
  | createLibp2p => exact h.elim
  | stop => exact h.elim
  | start => exact ⟨nofun, nofun⟩
  | dial target => exact ⟨nofun, nofun⟩
  | pingAndIdentify remotePeer => exact ⟨nofun, nofun⟩

/-- A probe creates one node at most, and stops it once and last unless it hands it over with its result. -/
theorem nodes_settled (library : ProbeLibrary) (candidate : BrowserPeerCandidate)
    {trace : List (Event (Libp2pNode library.Multiaddr))} {outcome : Except String PeerProbeResult}
    (h : (probePeer library candidate).run.Runs trace outcome) :
    trace.countP created ≤ 1 ∧ trace.countP created = trace.countP stopped + (if outcome.isOk then 1 else 0) ∧
      ∀ event ∈ trace.dropLast, ¬ stopped event := by
  cases outcome with
  | ok result =>
    obtain ⟨endpoint, target, identified, -, -, -, rfl, -⟩ := returns_probePeer.mp h
    refine ⟨le_of_eq rfl, rfl, ?_⟩
    intro event hMem
    exact List.countP_eq_zero.mp rfl event (List.dropLast_subset _ hMem)
  | error message =>
    obtain rfl | ⟨error, rfl⟩ | ⟨tried, answer, rfl, hTried⟩ := throws_probePeer h
    · exact ⟨Nat.zero_le 1, rfl, nofun⟩
    · exact ⟨Nat.zero_le 1, rfl, nofun⟩
    · have hCreated : tried.countP created = 0 := List.countP_eq_zero.mpr fun event hMem =>
        (not_created_of_tries (hTried event hMem)).1
      have hStopped : tried.countP stopped = 0 := List.countP_eq_zero.mpr fun event hMem =>
        (not_created_of_tries (hTried event hMem)).2
      have hOne : (⟨.createLibp2p, .ok ()⟩ :: tried ++
        [⟨.stop, answer⟩] : List (Event (Libp2pNode library.Multiaddr))).countP
          created = 1 := by
        rw [List.countP_append, List.countP_cons, hCreated]
        rfl
      have hOther : (⟨.createLibp2p, .ok ()⟩ :: tried ++
        [⟨.stop, answer⟩] : List (Event (Libp2pNode library.Multiaddr))).countP
          stopped = 1 := by
        rw [List.countP_append, List.countP_cons, hStopped]
        rfl
      refine ⟨hOne.le, by rw [hOne, hOther]; rfl, ?_⟩
      intro event hMem
      rw [List.dropLast_concat] at hMem
      obtain rfl | hMem := List.mem_cons.mp hMem
      · exact nofun
      · exact (not_created_of_tries (hTried event hMem)).2

end Nodes

section Vectors

open Libp2p (browserRecord)

/-- The packages on the browser record of the vectors, with the peer that an address was given on the way. -/
def visitLibrary : ProbeLibrary where
  PublicKey := Unit
  PeerId := Unit
  Multiaddr := SampleAddress × Option String
  peerIdDecidableEq := inferInstance
  openAndCertify := openSample
  createFromProtobuf payload := (readSample payload).map fun record =>
    ⟨record.peerId, record.multiaddrs.map fun address => (address, none), record.seqNumber⟩
  peerIdFromPublicKey _ := ()
  peerIdToString _ := signerId
  getComponents address := address.1.components ++ (address.2.map fun peer => ⟨"p2p", some peer⟩).toList
  toString
    | (address, none) => address.text
    | (address, some peer) => address.text ++ "/p2p/" ++ peer
  multiaddr text := (SampleAddress.ofText text).map fun address => (address, none)
  parse text := match SampleAddress.ofText text with
    | some address => .ok (address, none)
    | none => .error "invalid multiaddr"
  encapsulate address suffix := .ok (address.1, some (String.ofList (suffix.toList.drop 5)))

def visitCandidate : BrowserPeerCandidate :=
  ⟨signerId, 42, [SampleAddress.direct.text], hexText (spell browserRecord), 0x6a500000, 25943060, 3⟩

theorem parse_visit (address : SampleAddress) : visitLibrary.parse address.text = .ok (address, none) := by
  have hText := SampleAddress.ofText_text address
  simp only [visitLibrary, hText]

def pingTarget : visitLibrary.Multiaddr := (SampleAddress.direct, some signerId)

theorem qualified_ping : peerQualifiedAddress visitLibrary SampleAddress.direct.text signerId = .ok pingTarget := by
  have hUnnamed : ((visitLibrary.getComponents (SampleAddress.direct, none)).find? fun component =>
      component.name = "p2p").bind Component.value = none := by decide
  have hSuffix : String.ofList (("/p2p/" ++ signerId).toList.drop 5) = signerId := by
    rw [String.toList_append]
    exact String.ofList_toList
  rw [peerQualifiedAddress, parse_visit]
  refine bind_eq_ok.mpr ⟨_, rfl, ?_⟩
  rw [hUnnamed]
  exact congrArg (fun peer => Except.ok (SampleAddress.direct, some peer)) hSuffix

/-- Another peer answers the dial. -/
def impostor : List (Event (Libp2pNode visitLibrary.Multiaddr)) :=
  [⟨.createLibp2p, .ok ()⟩, ⟨.start, .ok ()⟩, ⟨.dial pingTarget, .ok "impostor"⟩, ⟨.stop, .ok ()⟩]

theorem throws_impostor : Throws (probePeer visitLibrary visitCandidate) impostor
    "connected peer identity does not match the signed registry record" := by
  have hEndpoint : visitCandidate.endpoints[0]? = some SampleAddress.direct.text := rfl
  have hTried : Throws (probeTarget visitLibrary pingTarget signerId)
    [⟨.start, .ok ()⟩, ⟨.dial pingTarget, .ok "impostor"⟩]
      "connected peer identity does not match the signed registry record" := by
    refine throws_bind.mpr (.inr ⟨_, (), _, rfl, returns_start.mpr rfl, ?_⟩)
    refine throws_bind.mpr (.inr ⟨_, "impostor", [], rfl, returns_dial.mpr rfl, ?_⟩)
    rw [if_pos (by decide)]
    exact throws_throw.mpr ⟨rfl, rfl⟩
  rw [probePeer, hEndpoint]
  refine throws_bind.mpr (.inr ⟨[], pingTarget, _, rfl, returns_decided.mpr ⟨rfl, qualified_ping⟩, ?_⟩)
  refine throws_bind.mpr (.inr ⟨_, (), _, rfl, returns_createLibp2p.mpr rfl, ?_⟩)
  refine throws_tryCatch.mpr ⟨_, _, _, rfl, hTried, ?_⟩
  exact throws_bind.mpr (.inr ⟨_, (), [], rfl, returns_stop.mpr rfl, throws_throw.mpr ⟨rfl, rfl⟩⟩)

theorem nodes_settled_impostor : impostor.countP created ≤ 1 ∧ impostor.countP created = impostor.countP stopped ∧
    ∀ event ∈ impostor.dropLast, ¬ stopped event := nodes_settled visitLibrary visitCandidate throws_impostor

end Vectors

end Resurrect.Explorer
