import Resurrect.Bootstrap.Controller

/-! # The bootstrap cycle contract

What one cycle may do after each history of answers, and what it returns. The
history alone says which sources were asked, what the checks read and which
candidates were offered, so the contract is about every behaviour of the adapters.
-/

namespace Resurrect.Bootstrap

open Resurrect.Core Interaction

section Observations

def checkOf : Event Adapters → Option Nat
  | ⟨.connectedPeers, count⟩ => some count
  | _ => none

def sourceOf : Event Adapters → Option Source
  | ⟨.discover source _, _⟩ => some source
  | _ => none

def offerOf : Event Adapters → Option PeerCandidate
  | ⟨.addVerifiedPeer peer, _⟩ => some peer
  | _ => none

def announcementOf : Event Adapters → Option (Except BootstrapError Unit)
  | ⟨.announce _, answer⟩ => some answer
  | _ => none

def eligibilityOf : Event Adapters → Option Bool
  | ⟨.eligible, answer⟩ => some answer
  | _ => none

def registryPeersOf : Event Adapters → List PeerCandidate
  | ⟨.discover .registry _, .ok peers⟩ => peers
  | _ => []

/-- The states a cycle enters on an answer. -/
def observe : Event Adapters → List BootstrapState
  | ⟨.discover source _, .ok (_ :: _)⟩ => [source.state, .dialing]
  | ⟨.discover source _, _⟩ => [source.state]
  | ⟨.eligible, true⟩ => [.isolated, .announceSelf]
  | ⟨.eligible, false⟩ => [.isolated]
  | _ => []

variable (history : List (Event Adapters))

def checks : List Nat := history.filterMap checkOf

def sources : List Source := history.filterMap sourceOf

def offered : List PeerCandidate := history.filterMap offerOf

def announcements : List (Except BootstrapError Unit) := history.filterMap announcementOf

def eligibilities : List Bool := history.filterMap eligibilityOf

def registryPeers : List PeerCandidate := history.flatMap registryPeersOf

def observed : List BootstrapState := history.flatMap observe

end Observations

theorem filterMap_concat {α β : Type} (f : α → Option β) (l : List α) (a : α) :
    (l ++ [a]).filterMap f = l.filterMap f ++ (f a).toList := by
  rw [List.filterMap_append]
  cases h : f a <;> simp [h]

section Concat

variable (history : List (Event Adapters)) (event : Event Adapters)

@[simp] theorem checks_concat : checks (history ++ [event]) = checks history ++ (checkOf event).toList :=
  filterMap_concat checkOf history event

@[simp] theorem sources_concat : sources (history ++ [event]) = sources history ++ (sourceOf event).toList :=
  filterMap_concat sourceOf history event

@[simp] theorem offered_concat : offered (history ++ [event]) = offered history ++ (offerOf event).toList :=
  filterMap_concat offerOf history event

@[simp] theorem announcements_concat :
    announcements (history ++ [event]) = announcements history ++ (announcementOf event).toList :=
  filterMap_concat announcementOf history event

@[simp] theorem eligibilities_concat :
    eligibilities (history ++ [event]) = eligibilities history ++ (eligibilityOf event).toList :=
  filterMap_concat eligibilityOf history event

@[simp] theorem registryPeers_concat :
    registryPeers (history ++ [event]) = registryPeers history ++ registryPeersOf event := by
  rw [registryPeers, List.flatMap_append, List.flatMap_singleton]
  rfl

@[simp] theorem observed_concat : observed (history ++ [event]) = observed history ++ observe event := by
  rw [observed, List.flatMap_append, List.flatMap_singleton]
  rfl

end Concat

def stageAfter (history : List (Event Adapters)) : BootstrapState :=
  ((sources history).getLast?.map Source.state).getD .start

def Source.earlier : Source → List Source
  | .cache => []
  | .native => [.cache]
  | .registry => [.cache, .native]

variable {controller : BootstrapController} {ns : Namespace} {history : List (Event Adapters)}

/-- What a cycle may invoke after its history. -/
def Allowed (controller : BootstrapController) (ns : Namespace) (history : List (Event Adapters)) :
    AdapterQuery → Prop
  | .discover source asked => asked = ns ∧ sources history = source.earlier ∧
      ∀ count ∈ checks history, count < controller.connectionTarget
  | .connect _ timeout => timeout = controller.policy.perDialTimeout ∧ offered history = registryPeers history
  | .addVerifiedPeer peer => ∃ rest, registryPeers history = offered history ++ peer :: rest
  | .eligible => sources history = [.cache, .native, .registry] ∧ eligibilities history = [] ∧
      ∀ count ∈ checks history, count < controller.connectionTarget
  | .announce ttl => ttl = controller.policy.rebootTtl ∧ sources history = [.cache, .native, .registry] ∧
      eligibilities history = [true] ∧ announcements history = [] ∧
      ∀ count ∈ checks history, count < controller.connectionTarget
  | _ => True

/-- A cycle that has asked `done`, still owes the native store the candidates `owed`, and has not
found the node connected. -/
structure Searching (controller : BootstrapController) (history : List (Event Adapters)) (done : List Source)
    (owed : List PeerCandidate) (transitions : List BootstrapState) : Prop where
  sources_eq : sources history = done
  below : ∀ count ∈ checks history, count < controller.connectionTarget
  announcements_eq : announcements history = []
  eligibilities_eq : eligibilities history = []
  registryPeers_eq : registryPeers history = offered history ++ owed
  transitions_eq : transitions = .start :: observed history

namespace Searching

variable {done : List Source} {owed : List PeerCandidate} {transitions : List BootstrapState}

theorem begin (controller : BootstrapController) : Searching controller [] [] [] [.start] where
  sources_eq := rfl
  below := by simp [checks]
  announcements_eq := rfl
  eligibilities_eq := rfl
  registryPeers_eq := rfl
  transitions_eq := rfl

theorem extend (h : Searching controller history done owed transitions) {event : Event Adapters}
    {remaining : List PeerCandidate} (hCheck : ∀ count ∈ checkOf event, count < controller.connectionTarget)
    (hAnnouncement : announcementOf event = none) (hEligibility : eligibilityOf event = none)
    (hOffer : owed ++ registryPeersOf event = (offerOf event).toList ++ remaining) :
    Searching controller (history ++ [event]) (done ++ (sourceOf event).toList) remaining
      (transitions ++ observe event) where
  sources_eq := by rw [sources_concat, h.sources_eq]
  below := by
    intro count hMem
    rw [checks_concat, List.mem_append, Option.mem_toList] at hMem
    exact hMem.elim (h.below count) (hCheck count)
  announcements_eq := by rw [announcements_concat, h.announcements_eq, hAnnouncement, Option.toList_none, List.nil_append]
  eligibilities_eq := by rw [eligibilities_concat, h.eligibilities_eq, hEligibility, Option.toList_none, List.nil_append]
  registryPeers_eq := by
    rw [registryPeers_concat, h.registryPeers_eq, offered_concat, List.append_assoc, hOffer, List.append_assoc]
  transitions_eq := by rw [observed_concat, h.transitions_eq, List.cons_append]

theorem extend_silent (h : Searching controller history done owed transitions) {event : Event Adapters}
    {remaining : List PeerCandidate} (hCheck : ∀ count ∈ checkOf event, count < controller.connectionTarget)
    (hSource : sourceOf event = none) (hObserve : observe event = [])
    (hAnnouncement : announcementOf event = none) (hEligibility : eligibilityOf event = none)
    (hOffer : owed ++ registryPeersOf event = (offerOf event).toList ++ remaining) :
    Searching controller (history ++ [event]) done remaining transitions := by
  have hNext := h.extend hCheck hAnnouncement hEligibility hOffer
  rwa [hSource, hObserve, Option.toList_none, List.append_nil, List.append_nil] at hNext

theorem check (h : Searching controller history done [] transitions) {count : Nat}
    (hCount : count < controller.connectionTarget) :
    Searching controller (history ++ [⟨.connectedPeers, count⟩]) done [] transitions := by
  refine h.extend_silent ?_ rfl rfl rfl rfl rfl
  rintro other ⟨⟩
  exact hCount

theorem poll (h : Searching controller history done [] transitions) {waiting inFlight : Nat}
    (progress : DialProgress waiting inFlight) :
    Searching controller (history ++ [⟨.pollDials waiting inFlight, progress⟩]) done [] transitions :=
  h.extend_silent (by rintro _ ⟨⟩) rfl rfl rfl rfl rfl

theorem connect (h : Searching controller history done [] transitions) (peer : PeerCandidate)
    (timeout : Duration) (answer : Unit) :
    Searching controller (history ++ [⟨.connect peer timeout, answer⟩]) done [] transitions :=
  h.extend_silent (by rintro _ ⟨⟩) rfl rfl rfl rfl rfl

theorem offer {peer : PeerCandidate} {rest : List PeerCandidate}
    (h : Searching controller history done (peer :: rest) transitions) (answer : Except BootstrapError Unit) :
    Searching controller (history ++ [⟨.addVerifiedPeer peer, answer⟩]) done rest transitions :=
  h.extend_silent (by rintro _ ⟨⟩) rfl rfl rfl rfl (List.append_nil _)

theorem discover_none (h : Searching controller history done [] transitions) (source : Source) (asked : Namespace)
    {answer : Except BootstrapError (List PeerCandidate)}
    (hNone : answer = .ok [] ∨ ∃ error, answer = .error error) :
    Searching controller (history ++ [⟨.discover source asked, answer⟩]) (done ++ [source]) []
      (transitions ++ [source.state]) := by
  obtain rfl | ⟨error, rfl⟩ := hNone
  · cases source <;> exact h.extend (by rintro _ ⟨⟩) rfl rfl rfl
  · cases source <;> exact h.extend (by rintro _ ⟨⟩) rfl rfl rfl

theorem discover_some (h : Searching controller history done [] transitions) (source : Source) (asked : Namespace)
    (peer : PeerCandidate) (rest : List PeerCandidate) :
    Searching controller (history ++ [⟨.discover source asked, .ok (peer :: rest)⟩]) (done ++ [source])
      (if source = .registry then peer :: rest else []) (transitions ++ [source.state, .dialing]) := by
  cases source <;> exact h.extend (by rintro _ ⟨⟩) rfl rfl rfl

end Searching

/-- A cycle whose last answer is the first check to read at least the target. -/
def Found (controller : BootstrapController) (history : List (Event Adapters)) (done : List Source)
    (transitions : List BootstrapState) : Prop :=
  ∃ before count, history = before ++ [⟨.connectedPeers, count⟩] ∧ controller.connectionTarget ≤ count ∧
    Searching controller before done [] transitions

def StageEnd (controller : BootstrapController) (source : Source) (history : List (Event Adapters)) :
    Bool × List BootstrapState → Prop
  | (true, transitions) => ∃ entered, Found controller history (source.earlier ++ [source]) entered ∧
      transitions = entered ++ [source.state] ++ [.connected]
  | (false, transitions) => Searching controller history (source.earlier ++ [source]) [] transitions

section Stages

variable {done : List Source} {transitions : List BootstrapState}

theorem guarantees_dialLoop (h : Searching controller history done [] transitions) (dials : Dials) :
    Guarantees (Allowed controller ns) (fun trace found => if found then Found controller trace done transitions
      else Searching controller trace done [] transitions) history (controller.dialLoop dials) := by
  fun_induction BootstrapController.dialLoop controller dials generalizing history
  case case1 dials filled hEmpty => exact .pure h
  case case2 dials filled hSome ihBegin ihFinish =>
    refine .ask_bind trivial fun progress => ?_
    have hPolled := h.poll progress
    cases progress with
    | started hWaiting =>
      refine .ask_bind ⟨rfl, ?_⟩ fun answer => ?_
      · rw [hPolled.registryPeers_eq, List.append_nil]
      · exact ihBegin hWaiting (hPolled.connect _ _ answer)
    | finished index outcome =>
      refine .ask_bind trivial fun count => ?_
      split
      · rename_i hCount
        exact .pure ⟨_, count, rfl, hCount, hPolled⟩
      · rename_i hCount
        exact ihFinish index (hPolled.check (not_le.mp hCount))

theorem guarantees_dialCandidates {source : Source} {peer : PeerCandidate} {rest : List PeerCandidate}
    (h : Searching controller history (source.earlier ++ [source]) [] (transitions ++ [.dialing])) :
    Guarantees (Allowed controller ns) (StageEnd controller source) history
      (controller.dialCandidates (peer :: rest) transitions source.state) := by
  rw [BootstrapController.dialCandidates, if_neg (List.cons_ne_nil _ _)]
  apply (guarantees_dialLoop h _).bind
  intro trace found hEnd
  cases found with
  | true => exact .pure ⟨_, hEnd, rfl⟩
  | false => exact .pure hEnd

theorem guarantees_offerAll {peers : List PeerCandidate} (h : Searching controller history done peers transitions) :
    Guarantees (Allowed controller ns) (fun trace _ => Searching controller trace done [] transitions) history
      (offerAll peers) := by
  induction peers generalizing history with
  | nil => exact .pure h
  | cons peer rest ih =>
    refine .ask_bind ⟨rest, h.registryPeers_eq⟩ fun answer => ?_
    exact ih (h.offer answer)

theorem guarantees_discoverAndDial (ns : Namespace) {source : Source} (hSource : source ≠ .registry)
    (h : Searching controller history source.earlier [] transitions) :
    Guarantees (Allowed controller ns) (StageEnd controller source) history
      (controller.discoverAndDial source ns (transitions ++ [source.state])) := by
  refine .ask_bind ⟨rfl, h.sources_eq, h.below⟩ fun answer => ?_
  cases answer with
  | error error => exact .pure (h.discover_none source ns (.inr ⟨error, rfl⟩))
  | ok peers =>
    cases peers with
    | nil => exact .pure (h.discover_none source ns (.inl rfl))
    | cons peer rest =>
      have hSome := h.discover_some source ns peer rest
      rw [if_neg hSource] at hSome
      apply guarantees_dialCandidates
      rwa [List.append_assoc]

theorem guarantees_scanAndDial (ns : Namespace)
    (h : Searching controller history Source.registry.earlier [] transitions) :
    Guarantees (Allowed controller ns) (StageEnd controller .registry) history
      (controller.scanAndDial ns (transitions ++ [Source.registry.state])) := by
  refine .ask_bind ⟨rfl, h.sources_eq, h.below⟩ fun answer => ?_
  cases answer with
  | error error => exact .pure (h.discover_none .registry ns (.inr ⟨error, rfl⟩))
  | ok peers =>
    cases peers with
    | nil =>
      exact .pure (h.discover_none .registry ns (.inl rfl))
    | cons peer rest =>
      apply (guarantees_offerAll (h.discover_some .registry ns peer rest)).bind
      intro trace _ hOffered
      apply guarantees_dialCandidates
      rwa [List.append_assoc]

end Stages

def closing (outcome : BootstrapOutcome) : List BootstrapState :=
  match outcome.connectedVia with
  | none => [.backoff]
  | some .start => [.connected]
  | some stage => [stage, .connected]

/-- What one cycle returns, read off the answers it got. -/
structure CycleResult (controller : BootstrapController) (trace : List (Event Adapters))
    (result : Except BootstrapError BootstrapOutcome) : Prop where
  connected_iff : (∃ outcome, result = .ok outcome ∧ outcome.state = .connected) ↔
    ∃ count ∈ checks trace, controller.connectionTarget ≤ count
  connected : ∀ outcome, result = .ok outcome → outcome.state = .connected →
    announcements trace = [] ∧ outcome.announced = false ∧
    ∃ before count, trace = before ++ [⟨.connectedPeers, count⟩] ∧
      (∀ earlier ∈ checks before, earlier < controller.connectionTarget) ∧
      controller.connectionTarget ≤ count ∧ outcome.connectedVia = some (stageAfter before)
  isolated : (∀ count ∈ checks trace, count < controller.connectionTarget) →
    sources trace = [.cache, .native, .registry] ∧
    ((eligibilities trace = [false] ∧ announcements trace = []) ∨
      ∃ answer, eligibilities trace = [true] ∧ announcements trace = [answer])
  error_iff : ∀ error, result = .error error ↔ announcements trace = [.error error]
  backoff : ∀ outcome, result = .ok outcome → outcome.state ≠ .connected →
    outcome.state = .backoff ∧ outcome.connectedVia = none ∧
    (outcome.announced = true ↔ announcements trace ≠ [])
  offered_eq : offered trace = registryPeers trace
  transitions_eq : ∀ outcome, result = .ok outcome →
    outcome.transitions = .start :: observed trace ++ closing outcome ∧
    outcome.transitions.getLast? = some outcome.state

section Results

variable {done : List Source} {transitions : List BootstrapState} {trace : List (Event Adapters)}

theorem cycleResult_of_found {via : BootstrapState} {closed : List BootstrapState}
    (h : Found controller trace done transitions) (hVia : via = (done.getLast?.map Source.state).getD .start)
    (hClosed : closed = closing (connectedOutcome [] via)) :
    CycleResult controller trace (.ok (connectedOutcome (transitions ++ closed) via)) := by
  obtain ⟨before, count, rfl, hCount, hBefore⟩ := h
  have hLast : closed.getLast? = some .connected := by
    rw [hClosed]
    cases via <;> rfl
  have hAnnouncements : announcements (before ++ [⟨.connectedPeers, count⟩]) = [] := by
    rw [announcements_concat, hBefore.announcements_eq]
    rfl
  have hReached : ∃ other ∈ checks (before ++ [⟨.connectedPeers, count⟩]), controller.connectionTarget ≤ other := by
    refine ⟨count, ?_, hCount⟩
    rw [checks_concat]
    exact List.mem_append_right _ (List.mem_singleton_self count)
  have hStage : via = stageAfter before := by rw [hVia, stageAfter, hBefore.sources_eq]
  constructor
  · exact ⟨fun _ => hReached, fun _ => ⟨_, rfl, rfl⟩⟩
  · rintro outcome ⟨⟩ -
    refine ⟨hAnnouncements, rfl, before, count, rfl, hBefore.below, hCount, ?_⟩
    rw [← hStage]
    rfl
  · intro hBelow
    obtain ⟨other, hMem, hOther⟩ := hReached
    exact absurd (hBelow other hMem) (not_lt.mpr hOther)
  · intro error
    rw [hAnnouncements]
    exact ⟨by rintro ⟨⟩, by rintro ⟨⟩⟩
  · rintro outcome ⟨⟩ hNot
    exact absurd rfl hNot
  · rw [offered_concat, registryPeers_concat, hBefore.registryPeers_eq, List.append_nil]
    rfl
  · rintro outcome ⟨⟩
    constructor
    · have hObserved : observed (before ++ [⟨.connectedPeers, count⟩]) = observed before := by
        rw [observed_concat]
        exact List.append_nil _
      rw [hObserved, ← hBefore.transitions_eq, hClosed]
      rfl
    · change (transitions ++ closed).getLast? = _
      rw [List.getLast?_append, hLast]
      rfl

/-- A cycle that has asked every source in vain, and whether it may announce. -/
structure Exhausted (controller : BootstrapController) (trace : List (Event Adapters)) (eligible : Bool)
    (answers : List (Except BootstrapError Unit)) (transitions : List BootstrapState) : Prop where
  sources_eq : sources trace = [.cache, .native, .registry]
  below : ∀ count ∈ checks trace, count < controller.connectionTarget
  announcements_eq : announcements trace = answers
  eligibilities_eq : eligibilities trace = [eligible]
  offered_eq : offered trace = registryPeers trace
  transitions_eq : transitions = .start :: observed trace

theorem Searching.exhausted (h : Searching controller history [.cache, .native, .registry] [] transitions)
    (eligible : Bool) : Exhausted controller (history ++ [⟨.eligible, eligible⟩]) eligible []
      (transitions ++ observe ⟨.eligible, eligible⟩) where
  sources_eq := by rw [sources_concat, h.sources_eq]; rfl
  below := by
    intro count hCount
    rw [checks_concat] at hCount
    exact h.below count ((List.append_nil _).subst hCount)
  announcements_eq := by rw [announcements_concat, h.announcements_eq]; rfl
  eligibilities_eq := by rw [eligibilities_concat, h.eligibilities_eq]; rfl
  offered_eq := by
    rw [offered_concat, registryPeers_concat, h.registryPeers_eq, List.append_nil]
    rfl
  transitions_eq := by rw [observed_concat, h.transitions_eq, List.cons_append]

theorem Exhausted.announce {eligible : Bool} (h : Exhausted controller trace eligible [] transitions)
    (ttl : Duration) (answer : Except BootstrapError Unit) :
    Exhausted controller (trace ++ [⟨.announce ttl, answer⟩]) eligible [answer] transitions where
  sources_eq := by rw [sources_concat, h.sources_eq]; rfl
  below := by
    intro count hCount
    rw [checks_concat] at hCount
    exact h.below count ((List.append_nil _).subst hCount)
  announcements_eq := by rw [announcements_concat, h.announcements_eq]; rfl
  eligibilities_eq := by rw [eligibilities_concat, h.eligibilities_eq]; rfl
  offered_eq := by rw [offered_concat, registryPeers_concat, h.offered_eq]; rfl
  transitions_eq := by
    rw [observed_concat, h.transitions_eq]
    exact congrArg _ (List.append_nil _).symm

section Exhausted

variable {eligible : Bool} {answers : List (Except BootstrapError Unit)}

theorem Exhausted.not_reached (h : Exhausted controller trace eligible answers transitions) :
    ¬ ∃ count ∈ checks trace, controller.connectionTarget ≤ count := by
  rintro ⟨count, hMem, hCount⟩
  exact absurd (h.below count hMem) (not_lt.mpr hCount)

theorem Exhausted.isolated (h : Exhausted controller trace eligible answers transitions)
    (hAnswers : eligible = false ∧ answers = [] ∨ ∃ answer, eligible = true ∧ answers = [answer]) :
    sources trace = [.cache, .native, .registry] ∧
    ((eligibilities trace = [false] ∧ announcements trace = []) ∨
      ∃ answer, eligibilities trace = [true] ∧ announcements trace = [answer]) := by
  refine ⟨h.sources_eq, ?_⟩
  rw [h.eligibilities_eq, h.announcements_eq]
  obtain ⟨rfl, rfl⟩ | ⟨answer, rfl, rfl⟩ := hAnswers
  · exact .inl ⟨rfl, rfl⟩
  · exact .inr ⟨answer, rfl, rfl⟩

theorem cycleResult_of_backoff (h : Exhausted controller trace eligible answers transitions) {announced : Bool}
    (hAnswers : eligible = false ∧ answers = [] ∧ announced = false ∨
      eligible = true ∧ answers = [.ok ()] ∧ announced = true) :
    CycleResult controller trace (.ok ⟨.backoff, none, announced, transitions ++ [.backoff]⟩) := by
  constructor
  · refine ⟨?_, fun hReached => absurd hReached h.not_reached⟩
    rintro ⟨outcome, ⟨⟩, hState⟩
    cases hState
  · rintro outcome ⟨⟩ hState
    cases hState
  · intro _
    apply h.isolated
    obtain ⟨hNot, hNone, -⟩ | ⟨hEligible, hSome, -⟩ := hAnswers
    · exact .inl ⟨hNot, hNone⟩
    · exact .inr ⟨.ok (), hEligible, hSome⟩
  · intro error
    rw [h.announcements_eq]
    obtain ⟨-, rfl, -⟩ | ⟨-, rfl, -⟩ := hAnswers
    · exact ⟨by rintro ⟨⟩, by rintro ⟨⟩⟩
    · exact ⟨by rintro ⟨⟩, by rintro ⟨⟩⟩
  · rintro outcome ⟨⟩ -
    refine ⟨rfl, rfl, ?_⟩
    rw [h.announcements_eq]
    rcases hAnswers with ⟨-, rfl, rfl⟩ | ⟨-, rfl, rfl⟩ <;> simp
  · exact h.offered_eq
  · rintro outcome ⟨⟩
    refine ⟨?_, List.getLast?_concat⟩
    rw [h.transitions_eq]
    rfl

theorem cycleResult_of_error {error : BootstrapError}
    (h : Exhausted controller trace true [.error error] transitions) :
    CycleResult controller trace (.error error) := by
  constructor
  · refine ⟨?_, fun hReached => absurd hReached h.not_reached⟩
    rintro ⟨outcome, ⟨⟩, -⟩
  · rintro outcome ⟨⟩
  · exact fun _ => h.isolated (.inr ⟨.error error, rfl, rfl⟩)
  · intro other
    rw [h.announcements_eq]
    constructor
    · rintro ⟨⟩
      rfl
    · rintro ⟨⟩
      rfl
  · rintro outcome ⟨⟩
  · exact h.offered_eq
  · rintro outcome ⟨⟩

end Exhausted

theorem guarantees_promote (h : Searching controller history [.cache, .native, .registry] [] transitions) :
    Guarantees (Allowed controller ns) (CycleResult controller) history
      (controller.promote (transitions ++ [.isolated])) := by
  refine .ask_bind ⟨h.sources_eq, h.eligibilities_eq, h.below⟩ fun eligible => ?_
  have hExhausted := h.exhausted eligible
  cases eligible with
  | false => exact .pure (cycleResult_of_backoff hExhausted (.inl ⟨rfl, rfl, rfl⟩))
  | true =>
    refine .ask_bind ⟨rfl, hExhausted.sources_eq, hExhausted.eligibilities_eq, hExhausted.announcements_eq,
      hExhausted.below⟩ fun answer => ?_
    have hAnnounced := hExhausted.announce controller.policy.rebootTtl answer
    cases answer with
    | error error => exact .pure (cycleResult_of_error hAnnounced)
    | ok answer =>
      have hTransitions : transitions ++ observe ⟨.eligible, true⟩ =
          transitions ++ [.isolated] ++ [.announceSelf] := by
        rw [List.append_assoc]
        rfl
      rw [hTransitions] at hAnnounced
      exact .pure (cycleResult_of_backoff hAnnounced (.inr ⟨rfl, rfl, rfl⟩))

end Results

theorem guarantees_runCycle (controller : BootstrapController) (ns : Namespace) :
    Guarantees (Allowed controller ns) (CycleResult controller) [] (controller.runCycle ns) := by
  have hStart := Searching.begin controller
  refine .ask_bind trivial fun count => ?_
  split
  · rename_i hCount
    exact .pure (cycleResult_of_found ⟨[], count, rfl, hCount, hStart⟩ rfl rfl)
  · rename_i hCount
    have hChecked : Searching controller _ Source.cache.earlier [] _ := hStart.check (not_le.mp hCount)
    apply (guarantees_discoverAndDial ns (by decide) hChecked).bind
    rintro trace ⟨connected, transitions⟩ hCache
    cases connected with
    | true =>
      obtain ⟨entered, hFound, rfl⟩ := hCache
      rw [List.append_assoc]
      exact .pure (cycleResult_of_found hFound rfl rfl)
    | false =>
      have hSearching : Searching controller trace Source.native.earlier [] transitions := hCache
      apply (guarantees_discoverAndDial ns (by decide) hSearching).bind
      rintro trace ⟨connected, transitions⟩ hNative
      cases connected with
      | true =>
        obtain ⟨entered, hFound, rfl⟩ := hNative
        rw [List.append_assoc]
        exact .pure (cycleResult_of_found hFound rfl rfl)
      | false =>
        have hSearching : Searching controller trace Source.registry.earlier [] transitions := hNative
        apply (guarantees_scanAndDial ns hSearching).bind
        rintro trace ⟨connected, transitions⟩ hRegistry
        cases connected with
        | true =>
          obtain ⟨entered, hFound, rfl⟩ := hRegistry
          rw [List.append_assoc]
          exact .pure (cycleResult_of_found hFound rfl rfl)
        | false => exact guarantees_promote hRegistry

section Insensitive

/-- Nowhere does `p` tell a failure of a source from an empty list. -/
def IgnoresFailure {α : Type} (source : Source) (asked : Namespace) (error : BootstrapError)
    (p : Prog Adapters α) : Prop :=
  Prog.Identifies (I := Adapters) (.discover source asked) (.error error) (.ok []) p

variable {source : Source} {asked : Namespace} {error : BootstrapError}

theorem identifies_dialLoop (dials : Dials) :
    IgnoresFailure source asked error (controller.dialLoop dials) := by
  fun_induction BootstrapController.dialLoop controller dials
  case case1 => exact Prog.identifies_pure
  case case2 dials filled hSome ihBegin ihFinish =>
    refine Prog.identifies_ask_bind (by rintro ⟨⟩) fun progress => ?_
    cases progress with
    | started hWaiting => exact Prog.identifies_ask_bind (by rintro ⟨⟩) fun _ => ihBegin hWaiting
    | finished index outcome =>
      refine Prog.identifies_ask_bind (by rintro ⟨⟩) fun count => ?_
      split
      · exact Prog.identifies_pure
      · exact ihFinish index

theorem identifies_dialCandidates (peers : List PeerCandidate) (transitions : List BootstrapState)
    (stage : BootstrapState) :
    IgnoresFailure source asked error (controller.dialCandidates peers transitions stage) := by
  rw [BootstrapController.dialCandidates]
  split
  · exact Prog.identifies_pure
  · apply (identifies_dialLoop _).bind
    intro found
    split
    · exact Prog.identifies_pure
    · exact Prog.identifies_pure

theorem identifies_offerAll (peers : List PeerCandidate) :
    IgnoresFailure source asked error (offerAll peers) := by
  induction peers with
  | nil => exact Prog.identifies_pure
  | cons peer rest ih => exact Prog.identifies_ask_bind (by rintro ⟨⟩) fun _ => ih

theorem identifies_discoverAndDial (stage : Source) (ns : Namespace) (transitions : List BootstrapState) :
    IgnoresFailure source asked error (controller.discoverAndDial stage ns transitions) := by
  refine Prog.identifies_ask_bind (by rintro ⟨⟩; rfl) fun answer => ?_
  cases answer with
  | error error => exact Prog.identifies_pure
  | ok peers => exact identifies_dialCandidates _ _ _

theorem identifies_scanAndDial (ns : Namespace) (transitions : List BootstrapState) :
    IgnoresFailure source asked error (controller.scanAndDial ns transitions) := by
  refine Prog.identifies_ask_bind (by rintro ⟨⟩; rfl) fun answer => ?_
  cases answer with
  | error error => exact Prog.identifies_pure
  | ok peers => exact (identifies_offerAll _).bind fun _ => identifies_dialCandidates _ _ _

theorem identifies_promote (transitions : List BootstrapState) :
    IgnoresFailure source asked error (controller.promote transitions) := by
  refine Prog.identifies_ask_bind (by rintro ⟨⟩) fun eligible => ?_
  cases eligible with
  | false => exact Prog.identifies_pure
  | true =>
    refine Prog.identifies_ask_bind (by rintro ⟨⟩) fun answer => ?_
    cases answer with
    | error error => exact Prog.identifies_pure
    | ok => exact Prog.identifies_pure

theorem identifies_runCycle (ns : Namespace) :
    IgnoresFailure source asked error (controller.runCycle ns) := by
  refine Prog.identifies_ask_bind (by rintro ⟨⟩) fun count => ?_
  split
  · exact Prog.identifies_pure
  apply (identifies_discoverAndDial _ _ _).bind
  rintro ⟨connected, transitions⟩
  cases connected with
  | true => exact Prog.identifies_pure
  | false =>
    apply (identifies_discoverAndDial _ _ _).bind
    rintro ⟨connected, transitions⟩
    cases connected with
    | true => exact Prog.identifies_pure
    | false =>
      apply (identifies_scanAndDial _ _).bind
      rintro ⟨connected, transitions⟩
      cases connected with
      | true => exact Prog.identifies_pure
      | false => exact identifies_promote _

end Insensitive

/-- The contract of one bootstrap cycle, for every behaviour of its adapters: what it may invoke
after each history, finished or not, what it returns, and that a failing source is an empty one. -/
theorem runCycle_contract (controller : BootstrapController) (ns : Namespace) :
    (∀ history target, (controller.runCycle ns).Reaches history target →
      Allowed controller ns history target) ∧
    (∀ trace result, (controller.runCycle ns).Runs trace result → CycleResult controller trace result) ∧
    ∀ source asked error, IgnoresFailure source asked error (controller.runCycle ns) := by
  have hCycle := guarantees_runCycle controller ns
  exact ⟨fun _ _ hReaches => hCycle.reaches hReaches, fun _ _ hRuns => hCycle.runs hRuns,
    fun _ _ _ => identifies_runCycle ns⟩

def seedController : BootstrapController where
  policy := ⟨1, 2, ⟨8, 0⟩, ⟨604800, 0⟩⟩

def testNamespace : Namespace := ⟨7⟩

def testPeer (id : UInt8) : PeerCandidate where
  recordType := 2
  peerId := [id]
  sequence := 1
  endpoints := [⟨"/ip4/127.0.0.1/tcp/4001"⟩]
  rawSignedRecord := [id]
  expiresAt := 18446744073709551615
  source := .resurrectRegistry
  announcementBlock := none
  announcementLogIndex := none

/-- A failing cache, no native peers, two registry peers of which one is refused by the native
store, dials that end out of order without connecting, and an announcement. -/
def isolatedRun : List (Event Adapters) :=
  [⟨.connectedPeers, (0 : Nat)⟩,
    ⟨.discover .cache testNamespace, .error (.discovery "expected")⟩,
    ⟨.discover .native testNamespace, .ok []⟩,
    ⟨.discover .registry testNamespace, .ok [testPeer 1, testPeer 2]⟩,
    ⟨.addVerifiedPeer (testPeer 1), .error (.nativePeerStore "full")⟩,
    ⟨.addVerifiedPeer (testPeer 2), .ok ()⟩,
    ⟨.pollDials 2 0, .started (by decide)⟩,
    ⟨.connect (testPeer 1) ⟨8, 0⟩, ()⟩,
    ⟨.pollDials 1 1, .started (by decide)⟩,
    ⟨.connect (testPeer 2) ⟨8, 0⟩, ()⟩,
    ⟨.pollDials 0 2, .finished 1 (.handshake false)⟩,
    ⟨.connectedPeers, (0 : Nat)⟩,
    ⟨.pollDials 0 1, .finished 0 .timedOut⟩,
    ⟨.connectedPeers, (0 : Nat)⟩,
    ⟨.eligible, true⟩,
    ⟨.announce ⟨604800, 0⟩, .ok ()⟩]

theorem runCycle_contract_isolated : CycleResult seedController isolatedRun
    (.ok ⟨.backoff, none, true, [.start, .cacheDiscovery, .nativeDiscovery, .resurrectScan, .dialing,
      .isolated, .announceSelf, .backoff]⟩) :=
  (runCycle_contract seedController testNamespace).2.1 _ _ (Prog.runs_of_replay (by decide +kernel))

end Resurrect.Bootstrap
