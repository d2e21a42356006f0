import Resurrect.Bootstrap.Exhaustion
import Resurrect.Foundation.Handler
import Resurrect.Node.Rediscovery
import Resurrect.Node.RegistryCounters
import Resurrect.Node.RenewalSpacing

/-! # How isolated nodes find one another

A native node is a bootstrap controller whose registry source and whose publisher
are the discovery and the announcer over a registry provider. Once a seed has
submitted an announcement, a node of the same network that searches the registry
afterwards and stays isolated has dialed that seed.
-/

namespace Resurrect.Node

open Resurrect.Core Interaction Ethereum Bootstrap Libp2p

inductive NodeQuery where
  | host (query : AdapterQuery)
  | registry (query : DiscoveryQuery)
  | announcer (query : AnnouncerQuery)
  deriving DecidableEq

/-- What a node runs over: its peer cache and its libp2p host, and the surroundings of its discovery and its
announcer. -/
abbrev NodeIO : Interface where
  Query := NodeQuery
  Answer
    | .host query => Adapters.Answer query
    | .registry query => DiscoveryIO.Answer query
    | .announcer query => AnnouncerIO.Answer query

instance : DecidableEq NodeIO.Query := inferInstanceAs (DecidableEq NodeQuery)

def hostPart : Embedding Adapters NodeIO where
  query := .host
  answer _ := Equiv.refl _

def registryPart : Embedding DiscoveryIO NodeIO where
  query := .registry
  answer _ := Equiv.refl _

def announcerPart : Embedding AnnouncerIO NodeIO where
  query := .announcer
  answer _ := Equiv.refl _

structure NativeNode (library : Library) where
  controller : BootstrapController
  discovery : RegistryDiscovery
  announcer : RegistryAnnouncer library

structure NodeState where
  discovery : DiscoveryState
  announcer : AnnouncerState
  deriving DecidableEq, Repr

namespace NativeNode

variable {library : Library} (keccak256 : Bytes → B256) (self : NativeNode library)

/-- The registry source is the discovery, the publisher the announcer; everything else is asked of the host. -/
def server : Server Adapters NodeIO NodeState := fun query state =>
  match query with
  | .discover .registry ns => do
    let (candidates, discovery) ← registryPart.lift (self.discovery.discover keccak256 ns state.discovery)
    pure (candidates, { state with discovery })
  | .eligible => do
    let eligible ← announcerPart.lift (self.announcer.promotionEligible state.announcer)
    pure (eligible, state)
  | .announce ttl => do
    let (published, announcer) ← announcerPart.lift (self.announcer.announce ttl state.announcer)
    pure (published, { state with announcer })
  | query => do
    let answer ← hostPart.lift (Prog.ask query)
    pure (answer, state)

def cycle (ns : Namespace) (state : NodeState) : Prog NodeIO (Except BootstrapError BootstrapOutcome × NodeState) :=
  (self.server keccak256).serve (self.controller.runCycle ns) state

end NativeNode

/-- What the registry provider answered the discovery. -/
def scannedOf : Event NodeIO → Option (Event RegistryProvider)
  | ⟨.registry (.provider query), answer⟩ => some ⟨query, answer⟩
  | _ => none

def scannedEvents (trace : List (Event NodeIO)) : List (Event RegistryProvider) := trace.filterMap scannedOf

theorem scannedEvents_append (trace more : List (Event NodeIO)) :
    scannedEvents (trace ++ more) = scannedEvents trace ++ scannedEvents more := List.filterMap_append

theorem scannedEvents_registry (trace : List (Event DiscoveryIO)) :
    scannedEvents (trace.map registryPart.event) = providerTrace trace := by
  rw [scannedEvents, List.filterMap_map]
  refine List.filterMap_congr fun event _ => ?_
  obtain ⟨query, answer⟩ := event
  cases query <;> rfl

theorem scannedEvents_announcer (trace : List (Event AnnouncerIO)) :
    scannedEvents (trace.map announcerPart.event) = [] := by
  rw [scannedEvents, List.filterMap_map]
  exact List.filterMap_eq_nil_iff.mpr fun _ _ => rfl

/-- The queries that are asked of the host. -/
def Hosted : AdapterQuery → Prop
  | .discover .registry _ => False
  | .eligible => False
  | .announce _ => False
  | _ => True

section Server

variable {library : Library} {keccak256 : Bytes → B256} {self : NativeNode library} {before after : NodeState}
  {part : List (Event NodeIO)}

theorem runs_hosted {query : AdapterQuery} (h : Hosted query) {answer : Adapters.Answer query} :
    (self.server keccak256 query before).Runs part (answer, after) ↔ part = [⟨.host query, answer⟩] ∧
      after = before := by
  have hServer : self.server keccak256 query before =
      (hostPart.lift (Prog.ask query) >>= fun answer => pure (answer, before)) := by
    cases query with
    | discover source ns =>
      cases source with
      | registry => exact h.elim
      | _ => rfl
    | eligible => exact h.elim
    | announce ttl => exact h.elim
    | _ => rfl
  rw [hServer, Prog.runs_bind]
  constructor
  · rintro ⟨first, value, second, rfl, hFirst, rfl, hResult⟩
    obtain ⟨rfl, rfl⟩ := Prod.mk.inj hResult
    obtain ⟨inner, rfl, hInner⟩ := hostPart.runs_lift.mp hFirst
    rw [Prog.runs_ask.mp hInner]
    exact ⟨rfl, rfl⟩
  · rintro ⟨rfl, rfl⟩
    exact ⟨_, answer, [], rfl, hostPart.runs_lift.mpr ⟨[⟨query, answer⟩], rfl, Prog.runs_ask.mpr rfl⟩, rfl, rfl⟩

theorem runs_registry {ns : Namespace} {candidates : Except BootstrapError (List PeerCandidate)}
    (h : (self.server keccak256 (.discover .registry ns) before).Runs part (candidates, after)) :
    ∃ inner : List (Event DiscoveryIO), part = inner.map registryPart.event ∧ after.announcer = before.announcer ∧
      (self.discovery.discover keccak256 ns before.discovery).Runs inner (candidates, after.discovery) := by
  obtain ⟨first, ⟨answered, discovery⟩, second, rfl, hFirst, rfl, hResult⟩ := Prog.runs_bind.mp h
  obtain ⟨rfl, rfl⟩ := Prod.mk.inj hResult
  obtain ⟨inner, rfl, hInner⟩ := registryPart.runs_lift.mp hFirst
  exact ⟨inner, List.append_nil _, rfl, hInner⟩

theorem runs_eligible {eligible : Bool} (h : (self.server keccak256 .eligible before).Runs part (eligible, after)) :
    ∃ inner : List (Event AnnouncerIO), part = inner.map announcerPart.event ∧ after = before := by
  obtain ⟨first, answered, second, rfl, hFirst, rfl, hResult⟩ := Prog.runs_bind.mp h
  obtain ⟨-, rfl⟩ := Prod.mk.inj hResult
  obtain ⟨inner, rfl, -⟩ := announcerPart.runs_lift.mp hFirst
  exact ⟨inner, List.append_nil _, rfl⟩

theorem runs_announce {ttl : Duration} {published : Except BootstrapError Unit}
    (h : (self.server keccak256 (.announce ttl) before).Runs part (published, after)) :
    ∃ inner : List (Event AnnouncerIO), part = inner.map announcerPart.event := by
  obtain ⟨first, ⟨answered, announcer⟩, second, rfl, hFirst, rfl, -⟩ := Prog.runs_bind.mp h
  obtain ⟨inner, rfl, -⟩ := announcerPart.runs_lift.mp hFirst
  exact ⟨inner, List.append_nil _⟩

/-- Nothing but a registry discovery asks the provider for a scan. -/
theorem scannedEvents_part {query : AdapterQuery} (hOther : ∀ ns, query ≠ .discover .registry ns)
    {answer : Adapters.Answer query} (h : (self.server keccak256 query before).Runs part (answer, after)) :
    scannedEvents part = [] := by
  by_cases hHosted : Hosted query
  · rw [((runs_hosted hHosted).mp h).1]
    rfl
  · cases query with
    | discover source ns =>
      cases source with
      | registry => exact absurd rfl (hOther ns)
      | _ => exact absurd trivial hHosted
    | eligible =>
      obtain ⟨inner, rfl, -⟩ := runs_eligible h
      exact scannedEvents_announcer inner
    | announce ttl =>
      obtain ⟨inner, rfl⟩ := runs_announce h
      exact scannedEvents_announcer inner
    | _ => exact absurd trivial hHosted

/-- The announcer changes in an announcement only. -/
theorem announcer_part {query : AdapterQuery} (hOther : ∀ ttl, query ≠ .announce ttl)
    {answer : Adapters.Answer query} (h : (self.server keccak256 query before).Runs part (answer, after)) :
    after.announcer = before.announcer := by
  by_cases hHosted : Hosted query
  · rw [((runs_hosted hHosted).mp h).2]
  · cases query with
    | discover source ns =>
      cases source with
      | registry =>
        obtain ⟨inner, -, hKept, -⟩ := runs_registry h
        exact hKept
      | _ => exact absurd trivial hHosted
    | eligible =>
      obtain ⟨inner, -, hKept⟩ := runs_eligible h
      rw [hKept]
    | announce ttl => exact absurd rfl (hOther ttl)
    | _ => exact absurd trivial hHosted

/-- The discovery changes in a registry discovery only. -/
theorem discovery_part {query : AdapterQuery} (hOther : ∀ ns, query ≠ .discover .registry ns)
    {answer : Adapters.Answer query} (h : (self.server keccak256 query before).Runs part (answer, after)) :
    after.discovery = before.discovery := by
  by_cases hHosted : Hosted query
  · rw [((runs_hosted hHosted).mp h).2]
  · cases query with
    | discover source ns =>
      cases source with
      | registry => exact absurd rfl (hOther ns)
      | _ => exact absurd trivial hHosted
    | eligible =>
      obtain ⟨inner, -, hKept⟩ := runs_eligible h
      rw [hKept]
    | announce ttl =>
      obtain ⟨first, ⟨answered, announcer⟩, second, rfl, -, rfl, hResult⟩ := Prog.runs_bind.mp h
      obtain ⟨-, rfl⟩ := Prod.mk.inj hResult
      rfl
    | _ => exact absurd trivial hHosted

/-- Only an announcement reaches the provider with one. -/
theorem reaches_submission {query : AdapterQuery} {address : Address} {ns : Namespace} {recordType supplied : UInt32}
    {peerRecord : Bytes} (h : (self.server keccak256 query before).Reaches part
      (.announcer (.provider (.announce address ns recordType supplied peerRecord)))) :
    ∃ ttl inner, query = .announce ttl ∧ (self.announcer.announce ttl before.announcer).Reaches inner
      (.provider (.announce address ns recordType supplied peerRecord)) := by
  have hHost : ∀ query : AdapterQuery, ¬ (hostPart.lift (Prog.ask query) >>= fun answer =>
      (pure (answer, before) : Prog NodeIO _)).Reaches part
        (.announcer (.provider (.announce address ns recordType supplied peerRecord))) := by
    intro query hReaches
    obtain hAsk | ⟨_, _, _, -, -, hPure⟩ := Prog.reaches_bind.mp hReaches
    · obtain ⟨_, _, -, hTarget, -⟩ := hostPart.reaches_lift.mp hAsk
      cases hTarget
    · exact absurd hPure Prog.reaches_pure
  cases query with
  | discover source asked =>
    cases source with
    | registry =>
      obtain hDiscover | ⟨_, _, _, -, -, hPure⟩ := Prog.reaches_bind.mp h
      · obtain ⟨_, _, -, hTarget, -⟩ := registryPart.reaches_lift.mp hDiscover
        cases hTarget
      · exact absurd hPure Prog.reaches_pure
    | _ => exact absurd h (hHost _)
  | eligible =>
    obtain hEligible | ⟨_, _, _, -, -, hPure⟩ := Prog.reaches_bind.mp h
    · obtain ⟨inner, asked, -, hTarget, hAsked⟩ := announcerPart.reaches_lift.mp hEligible
      cases hTarget
      cases asks_promotionEligible before.announcer inner _ hAsked
    · exact absurd hPure Prog.reaches_pure
  | announce ttl =>
    obtain hAnnounce | ⟨_, _, _, -, -, hPure⟩ := Prog.reaches_bind.mp h
    · obtain ⟨inner, asked, -, hTarget, hAsked⟩ := announcerPart.reaches_lift.mp hAnnounce
      cases hTarget
      exact ⟨ttl, inner, rfl, hAsked⟩
    · exact absurd hPure Prog.reaches_pure
  | _ => exact absurd h (hHost _)

end Server

section Search

variable {library : Library} {keccak256 : Bytes → B256} {self : NativeNode library} {ns : Namespace}
  {state last : NodeState} {trace history : List (Event NodeIO)} {result : Except BootstrapError BootstrapOutcome}

theorem announcementOf_eq_none {outer : List (Event Adapters)} (h : announcements outer = []) :
    ∀ event ∈ outer, ∀ ttl, event.query ≠ .announce ttl := by
  rintro ⟨query, answer⟩ hMem ttl rfl
  exact absurd (List.filterMap_eq_nil_iff.mp h _ hMem) (by rintro ⟨⟩)

theorem exists_registry_split {outer : List (Event Adapters)} (h : sources outer = [.cache, .native, .registry]) :
    ∃ before asked answer after, outer = before ++ ⟨.discover .registry asked, answer⟩ :: after ∧
      (∀ event ∈ before, ∀ ns, event.query ≠ .discover .registry ns) ∧
      ∀ event ∈ after, ∀ ns, event.query ≠ .discover .registry ns := by
  have hSplit : outer.filterMap sourceOf = [.cache, .native] ++ [.registry] := h
  obtain ⟨first, second, rfl, hFirst, hSecond⟩ := List.filterMap_eq_append_iff.mp hSplit
  obtain ⟨skipped, ⟨query, answer⟩, after, rfl, hSkipped, hEvent, hAfter⟩ := List.filterMap_eq_cons_iff.mp hSecond
  cases query with
  | discover source asked =>
    obtain rfl : source = .registry := Option.some.inj hEvent
    refine ⟨first ++ skipped, asked, answer, after, (List.append_assoc ..).symm, ?_, ?_⟩
    · rintro ⟨query, answer⟩ hMem ns rfl
      obtain hMem | hMem := List.mem_append.mp hMem
      · have hSource : Source.registry ∈ first.filterMap sourceOf := List.mem_filterMap.mpr ⟨_, hMem, rfl⟩
        rw [hFirst] at hSource
        exact absurd hSource (by decide)
      · exact absurd (hSkipped _ hMem) (by rintro ⟨⟩)
    · rintro ⟨query, answer⟩ hMem ns rfl
      exact absurd (List.filterMap_eq_nil_iff.mp hAfter _ hMem) (by rintro ⟨⟩)
  | _ => cases hEvent

/-- What an isolated cycle was answered as registry candidates is what its scan reported. -/
theorem discovered_of_isolated {outer : List (Event Adapters)}
    (hServed : (self.server keccak256).Served state outer trace last)
    (hRuns : (self.controller.runCycle self.discovery.descriptor.namespace).Runs outer result)
    (hBelow : ∀ count ∈ checks outer, count < self.controller.connectionTarget) {report : ScanReport}
    (hScan : Returns (self.discovery.scanner.scan keccak256 self.discovery.descriptor self.discovery.localNodeId
      state.discovery.checkpoint) (scannedEvents trace) report) :
    ⟨.discover .registry self.discovery.descriptor.namespace, .ok report.candidates⟩ ∈ outer := by
  have hCycle := guarantees_runCycle self.controller self.discovery.descriptor.namespace
  obtain ⟨hSources, -⟩ := (hCycle.runs hRuns).isolated hBelow
  obtain ⟨before, asked, answer, after, rfl, hBefore, hAfter⟩ := exists_registry_split hSources
  obtain rfl : asked = self.discovery.descriptor.namespace := (hCycle.reaches hRuns.reaches).1
  obtain ⟨first, rest, middle, rfl, hFirst, hRest⟩ := hServed.exists_split
  obtain _ | ⟨hPart, hSecond⟩ := hRest
  obtain ⟨inner, rfl, -, hDiscover⟩ := runs_registry hPart
  have hState : middle.discovery = state.discovery := hFirst.kept fun event hMem => discovery_part (hBefore event hMem)
  have hNone : scannedEvents first = [] := hFirst.filterMap_eq_nil fun event hMem =>
    scannedEvents_part (hBefore event hMem)
  have hNoMore : scannedEvents _ = [] := hSecond.filterMap_eq_nil fun event hMem =>
    scannedEvents_part (hAfter event hMem)
  rw [scannedEvents_append, scannedEvents_append, hNone, scannedEvents_registry, hNoMore, List.nil_append,
    List.append_nil,
    ← hState] at hScan
  let call : Call := ⟨self.discovery.descriptor.namespace, inner, answer⟩
  have hCall : (self.discovery.discover keccak256 call.namespace middle.discovery).Runs call.trace (call.result, _) :=
    hDiscover
  obtain ⟨hOther, -⟩ | ⟨-, -, error, hThrows, -⟩ | ⟨other, hOther, -, hAnswer⟩ := discover_next hCall
  · exact absurd rfl hOther
  · cases hScan.unique hThrows
  · obtain rfl : report = other := Except.ok.inj (hScan.unique hOther)
    exact hAnswer ▸ List.mem_append_right _ (List.mem_cons_self ..)

/-- An isolated cycle has offered every candidate of its registry scan to the native store, and dialed it. -/
theorem dialed_of_isolated
    (h : (self.cycle keccak256 self.discovery.descriptor.namespace state).Runs trace (result, last))
    (hIsolated : ∀ outcome, result = .ok outcome → outcome.state ≠ .connected) {report : ScanReport}
    (hScan : Returns (self.discovery.scanner.scan keccak256 self.discovery.descriptor self.discovery.localNodeId
      state.discovery.checkpoint) (scannedEvents trace) report) {candidate : PeerCandidate}
    (hCandidate : candidate ∈ report.candidates) :
    (∃ answer, (⟨.host (.addVerifiedPeer candidate), answer⟩ : Event NodeIO) ∈ trace) ∧
      (⟨.host (.connect candidate self.controller.policy.perDialTimeout), ()⟩ : Event NodeIO) ∈ trace := by
  obtain ⟨outer, hServed, hRuns⟩ := Server.runs_serve.mp h
  have hCycle := guarantees_runCycle self.controller self.discovery.descriptor.namespace
  have hResult := hCycle.runs hRuns
  have hBelow : ∀ count ∈ checks outer, count < self.controller.connectionTarget := by
    intro count hMem
    by_contra hReached
    obtain ⟨outcome, hOutcome, hState⟩ := hResult.connected_iff.mpr ⟨count, hMem, not_lt.mp hReached⟩
    exact hIsolated outcome hOutcome hState
  have hDiscovered := discovered_of_isolated hServed hRuns hBelow hScan
  have hHost : ∀ {query : AdapterQuery} {answer : Adapters.Answer query}, Hosted query →
      (⟨query, answer⟩ : Event Adapters) ∈ outer → (⟨.host query, answer⟩ : Event NodeIO) ∈ trace := by
    intro query answer hHosted hMem
    obtain ⟨part, before, after, hSubset, hPart⟩ := hServed.exists_part hMem
    rw [((runs_hosted hHosted).mp hPart).1] at hSubset
    exact hSubset (List.mem_singleton_self _)
  constructor
  · have hRegistry : candidate ∈ registryPeers outer := List.mem_flatMap.mpr ⟨_, hDiscovered, hCandidate⟩
    have hOffered : Bootstrap.offered ([] ++ outer) = registryPeers ([] ++ outer) := hResult.offered_eq
    rw [← List.nil_append outer, ← hOffered] at hRegistry
    obtain ⟨⟨query, answer⟩, hMem, hOffer⟩ := List.mem_filterMap.mp hRegistry
    cases query with
    | addVerifiedPeer peer =>
      obtain rfl : peer = candidate := Option.some.inj hOffer
      exact ⟨answer, hHost trivial hMem⟩
    | _ => cases hOffer
  · have hAnswered : candidate ∈ answeredPeers outer := List.mem_flatMap.mpr ⟨_, hDiscovered, hCandidate⟩
    rw [← dialedAll_runCycle hRuns hIsolated] at hAnswered
    obtain ⟨⟨query, answer⟩, hMem, hDial⟩ := List.mem_filterMap.mp hAnswered
    cases query with
    | connect peer timeout =>
      obtain rfl : peer = candidate := Option.some.inj hDial
      obtain ⟨before, after, hOuter⟩ := List.append_of_mem hMem
      rw [hOuter] at hRuns
      obtain ⟨rfl, -⟩ := hCycle.reaches hRuns.reaches
      exact hHost trivial hMem
    | _ => cases hDial

/-- Where a cycle submits a record, it is one the announcer signs next. -/
theorem submits_of_cycle {address : Address} {submittedTo : Namespace} {recordType supplied : UInt32}
    {peerRecord : Bytes}
    (h : (self.cycle keccak256 ns state).Reaches history
      (.announcer (.provider (.announce address submittedTo recordType supplied peerRecord)))) :
    recordTypeLibp2p ∈ self.announcer.descriptor.acceptedRecordTypes ∧
      RegistryAnnouncer.Submits self.announcer state.announcer.sequence address submittedTo recordType peerRecord := by
  obtain ⟨outer, query, before, part, middle, -, hServed, hReaches, hPart⟩ := Server.reaches_serve h
  obtain ⟨ttl, inner, rfl, hAnnounce⟩ := reaches_submission hPart
  obtain ⟨-, -, -, hNone, -⟩ := (guarantees_runCycle self.controller ns).reaches hReaches
  have hState : middle.announcer = state.announcer :=
    hServed.kept fun event hMem => announcer_part (announcementOf_eq_none hNone event hMem)
  rw [← hState]
  exact RegistryAnnouncer.submits_of_announce hAnnounce

end Search

/-- The node has offered a record of the peer at least as new as `sequence` to its native store, and dialed it. -/
def Sought {library : Library} (self : NativeNode library) (peerId : Bytes) (sequence : UInt64)
    (trace : List (Event NodeIO)) : Prop :=
  ∃ candidate : PeerCandidate, candidate.recordType = recordTypeLibp2p ∧ candidate.peerId = peerId ∧
    sequence ≤ candidate.sequence ∧ (∃ answer, (⟨.host (.addVerifiedPeer candidate), answer⟩ : Event NodeIO) ∈ trace) ∧
    (⟨.host (.connect candidate self.controller.policy.perDialTimeout), ()⟩ : Event NodeIO) ∈ trace

/-- Resurrection: once a seed's cycle has submitted its record, even if nothing follows, every later cycle of a node
of the network that can use the record, and whose scan covers it while it is live, finds the node connected or seeks
that seed. -/
theorem isolated_nodes_meet {library : Library} (hLawful : library.Lawful) (keccak256 : Bytes → B256)
    (seed finder : NativeNode library) (hNetwork : finder.discovery.descriptor = seed.announcer.descriptor)
    {ns submittedTo : Namespace} {seedState : NodeState} {history : List (Event NodeIO)} {address : Address}
    {recordType supplied : UInt32} {peerRecord : Bytes}
    (hSubmitted : (seed.cycle keccak256 ns seedState).Reaches history
      (.announcer (.provider (.announce address submittedTo recordType supplied peerRecord))))
    {chain : Chain} {log : Announcement} (hLog : log ∈ chain.logs address submittedTo)
    (hEmitted : ResurrectBeaconV1.announce (chain.blockTimestamp log.blockNumber) submittedTo recordType supplied
      peerRecord = .ok ⟨log.namespace, log.recordType, log.validUntil, log.peerRecord⟩)
    {finderState last : NodeState} {trace : List (Event NodeIO)} {result : Except BootstrapError BootstrapOutcome}
    (hRun : (finder.cycle keccak256 finder.discovery.descriptor.namespace finderState).Runs trace (result, last))
    {report : ScanReport} (hScan : Returns (finder.discovery.scanner.scan keccak256 finder.discovery.descriptor
      finder.discovery.localNodeId finderState.discovery.checkpoint) (scannedEvents trace) report)
    (hObserves : Observes chain finder.discovery.scanner finder.discovery.descriptor (scannedEvents trace) report)
    (hFirst : finder.discovery.descriptor.registry.deploymentBlock ≤ log.blockNumber)
    (hLast : log.blockNumber ≤ report.head.number) (hLive : report.head.timestamp < log.validUntil)
    {codec : Libp2pPeerRecordCodec} (hCodec : finder.discovery.codecs.get recordTypeLibp2p = some (codec.codec library))
    (hEndpoints : seed.announcer.addresses.length ≤
      min codec.maxEndpoints finder.discovery.scannerConfig.maxEndpointsPerRecord)
    (hUsable : ∃ endpoint ∈ seed.announcer.addresses, codec.policy.accepts (library.protocols endpoint)
      (some seed.announcer.peerId) finder.discovery.scannerConfig.dialContext = true) :
    (∃ outcome, result = .ok outcome ∧ outcome.state = .connected) ∨
      Sought finder (library.toBytes seed.announcer.peerId) seedState.announcer.sequence trace := by
  by_cases hConnected : ∃ outcome, result = .ok outcome ∧ outcome.state = .connected
  · exact .inl hConnected
  right
  obtain ⟨hAccepted, rfl, rfl, rfl, hSigned⟩ := submits_of_cycle hSubmitted
  have hEvent := (ResurrectBeaconV1.announce_eq_ok.mp hEmitted).2
  simp only [ResurrectBeaconV1.PeerAnnounced.mk.injEq] at hEvent
  obtain ⟨hNamespace, hType, -, rfl⟩ := hEvent
  obtain ⟨offer, hOffer, hOfferType, hOfferPeer, hOfferSequence⟩ := @validateAnnouncement_signed library seed.announcer
    finder.discovery.scanner log report.head codec hLawful _ hSigned hNamespace hType hAccepted hLive hCodec hEndpoints
    hUsable
  rw [← hNetwork] at hLog hEmitted hOffer
  have hWindow := hObserves.mem_windowLogs hScan hEmitted hLog hFirst hLast hLive
  obtain ⟨candidate, -, hOnly, hIdent, hFresh⟩ :=
    hObserves.exists_reported hScan (mem_accepted.mpr ⟨log, hWindow, hOffer⟩)
  have hReported : candidate ∈ report.candidates := by
    apply List.mem_of_mem_filter
    rw [hOnly]
    exact List.mem_singleton_self candidate
  have hIsolated : ∀ outcome, result = .ok outcome → outcome.state ≠ .connected :=
    fun outcome hOutcome hState => hConnected ⟨outcome, hOutcome, hState⟩
  obtain ⟨hOffered, hDialed⟩ := dialed_of_isolated hRun hIsolated hScan hReported
  obtain ⟨hCandidateType, hCandidatePeer⟩ := identityKey_inj.mp hIdent
  rw [hOfferSequence] at hFresh
  exact ⟨candidate, hCandidateType.trans hOfferType, hCandidatePeer.trans hOfferPeer, hFresh, hOffered, hDialed⟩

def isolatedSeed : NativeNode vectorLibrary where
  controller := ⟨{ seedController.policy with rebootTtl := ⟨2592000, 0⟩ }⟩
  discovery := ⟨developmentDescriptor, browserScanner.codecs, browserScanner.config, [1], false⟩
  announcer := vectorAnnouncer

def isolatedNode : NativeNode vectorLibrary :=
  { isolatedSeed with announcer := { vectorAnnouncer with eligible := false } }

/-- A search that finds nobody in the cache or nearby. -/
def nobodyNear : List (Event NodeIO) :=
  [⟨.host .connectedPeers, (0 : Nat)⟩, ⟨.host (.discover .cache developmentDescriptor.namespace), .ok []⟩,
    ⟨.host (.discover .native developmentDescriptor.namespace), .ok []⟩]

/-- The registry does not answer the scan, but takes the announcement. -/
def submission : List (Event NodeIO) :=
  nobodyNear ++ [⟨.registry (.provider .chainId), .error (.request "no route")⟩,
    ⟨.announcer .systemTime, some ⟨95 * 86400, 0⟩⟩, ⟨.announcer (.provider .chainId), .ok 31337⟩,
    ⟨.announcer (.provider (.registryConstants developmentDescriptor.registry.address)), .ok ⟨1, 7776000, 4096⟩⟩]

/-- Five days later the node finds the announcement, but not its peer. -/
def searching : List (Event NodeIO) :=
  nobodyNear ++ (dailyAnswers none 100 10 [54, 31, 19, 13, 10, 9] [vectorLog]).map (fun event =>
    ⟨.registry (.provider event.query), event.answer⟩) ++
  [⟨.host (.addVerifiedPeer vectorCandidate), .ok ()⟩, ⟨.host (.pollDials 1 0), .started Nat.zero_lt_one⟩,
    ⟨.host (.connect vectorCandidate ⟨8, 0⟩), ()⟩,
    ⟨.host (.pollDials 0 1), .finished ⟨0, Nat.zero_lt_one⟩ .timedOut⟩, ⟨.host .connectedPeers, (0 : Nat)⟩]

def searchedState : NodeState := ⟨⟨some vectorReport.checkpoint, ⟨1, 0, 1, 0, 0, 0⟩⟩, ⟨1, 0, 0⟩⟩

theorem isolated_nodes_meet_vector : Sought isolatedNode vectorPeerId 42 searching := by
  have hSubmitted : (isolatedSeed.cycle vectorKeccak developmentDescriptor.namespace ⟨.new, ⟨42, 0, 0⟩⟩).Reaches
    submission
      (.announcer (.provider (.announce developmentDescriptor.registry.address developmentDescriptor.namespace
        recordTypeLibp2p 2592000 browserRecord))) := Prog.reaches_of_awaits (by decide +kernel)
  have hRun : (isolatedNode.cycle vectorKeccak developmentDescriptor.namespace ⟨.new, ⟨1, 0, 0⟩⟩).Runs searching
      (.ok ⟨.backoff, none, false, [.start, .cacheDiscovery, .nativeDiscovery, .resurrectScan, .dialing, .isolated,
        .backoff]⟩, searchedState) := Prog.runs_of_replay (by decide +kernel)
  have hEvents : scannedEvents searching = dailyAnswers none 100 10 [54, 31, 19, 13, 10, 9] [vectorLog] := rfl
  have hScan : Returns (isolatedNode.discovery.scanner.scan vectorKeccak developmentDescriptor [1] none)
      (scannedEvents searching) vectorReport := by
    rw [hEvents]
    exact Prog.runs_of_replay (by decide +kernel)
  have hObserves : Observes vectorChain isolatedNode.discovery.scanner developmentDescriptor (scannedEvents searching)
      vectorReport := by
    rw [hEvents]
    constructor
    · exact honestBlocks_daily rfl
    · exact honestLogs_daily (by decide +kernel)
    · exact nondecreasing_daily rfl 8
    · decide
    · decide +kernel
  have hCodec : isolatedNode.discovery.codecs.get recordTypeLibp2p =
      some (Libp2pPeerRecordCodec.default.codec vectorLibrary) := CodecRegistry.get_register _ _
  obtain ⟨outcome, hOutcome, hState⟩ | hSought := isolated_nodes_meet vectorLibrary_lawful vectorKeccak isolatedSeed
    isolatedNode rfl hSubmitted (List.mem_singleton_self vectorLog) (by decide +kernel) hRun hScan hObserves (by decide)
    (by decide) (by decide) hCodec (by decide) ⟨.browser, List.mem_singleton_self _, by decide⟩
  · rw [← Except.ok.inj hOutcome] at hState
    cases hState
  · exact hSought

end Resurrect.Node
