import Resurrect.Bootstrap.CycleContract

/-! # Connectivity at the guarded calls

Runs in which the connection count moves while the cycle waits. Reading the
registry and spending gas are preceded by a fresh check, except right after a
source that failed or found nobody: there the last count the cycle knows is the
one from before it waited.
-/

namespace Resurrect.Bootstrap

open Resurrect.Core Interaction

/-- An answer, and how many peers are connected at the moment it arrives. -/
structure Moment where
  event : Event Adapters
  connected : Nat

def Moment.Follows (moment : Moment) (count : Nat) : Prop :=
  match moment.event with
  | ⟨.connectedPeers, reading⟩ => reading = moment.connected
  | ⟨.eligible, _⟩ => moment.connected = count
  | _ => True

/-- The count changes only while the cycle waits for an answer. -/
def Coherent : Nat → List Moment → Prop
  | _, [] => True
  | count, moment :: rest => moment.Follows count ∧ Coherent moment.connected rest

/-- The count when the next call is made: nothing has been waited for since the last answer. -/
def countAfter (start : Nat) (history : List Moment) : Nat :=
  (history.getLast?.map Moment.connected).getD start

def events (history : List Moment) : List (Event Adapters) := history.map Moment.event

/-- The calls that read Ethereum or spend gas. -/
def Guarded : AdapterQuery → Prop
  | .discover .registry _ => True
  | .announce _ => True
  | _ => False

def Misses (source : Source) (event : Event Adapters) : Prop :=
  ∃ asked answer, event = ⟨.discover source asked, answer⟩ ∧ (answer = .ok [] ∨ ∃ error, answer = .error error)

theorem countAfter_concat (start : Nat) (history : List Moment) (moment : Moment) :
    countAfter start (history ++ [moment]) = moment.connected := by
  rw [countAfter, List.getLast?_concat]
  rfl

theorem coherent_append {start : Nat} {history more : List Moment} :
    Coherent start (history ++ more) ↔ Coherent start history ∧ Coherent (countAfter start history) more := by
  induction history generalizing start with
  | nil => simp [Coherent, countAfter]
  | cons moment rest ih =>
    have hCount : countAfter start (moment :: rest) = countAfter moment.connected rest := by
      cases rest with
      | nil => rfl
      | cons second rest =>
        rw [countAfter, countAfter, List.getLast?_cons_cons]
        rw [List.getLast?_eq_some_getLast (List.cons_ne_nil second rest)]
        rfl
    rw [List.cons_append, Coherent, Coherent, ih, hCount, and_assoc]

section Order

variable {target : Nat} {controller : BootstrapController} {ns : Namespace} {history : List (Event Adapters)}

def EndsBelow (target : Nat) (history : List (Event Adapters)) : Prop :=
  ∃ before count, history = before ++ [⟨.connectedPeers, count⟩] ∧ count < target

def EndsMissing (source : Source) (history : List (Event Adapters)) : Prop :=
  ∃ before event, history = before ++ [event] ∧ Misses source event

def EndsEligible (history : List (Event Adapters)) : Prop := ∃ before, history = before ++ [⟨.eligible, true⟩]

/-- What precedes a guarded call, and which answers are followed by one. -/
structure CallOrder (target : Nat) (history : List (Event Adapters)) (query : AdapterQuery) : Prop where
  discover : ∀ asked, query = .discover .registry asked → EndsBelow target history ∨ EndsMissing .native history
  announce : ∀ ttl, query = .announce ttl → ∃ before, history = before ++ [⟨.eligible, true⟩] ∧
    (EndsBelow target before ∨ EndsMissing .registry before)
  after_native : EndsMissing .native history → ∃ asked, query = .discover .registry asked
  after_eligible : EndsEligible history → ∃ ttl, query = .announce ttl

/-- A history after which no guarded call has to follow. -/
def Quiet (history : List (Event Adapters)) : Prop := ¬ EndsMissing .native history ∧ ¬ EndsEligible history

theorem concat_inj {α : Type} {l l' : List α} {a b : α} : l ++ [a] = l' ++ [b] ↔ l = l' ∧ a = b := by
  simp

theorem quiet_concat (history : List (Event Adapters)) {event : Event Adapters}
    (hMiss : ¬ Misses .native event) (hEligible : event ≠ ⟨.eligible, true⟩) : Quiet (history ++ [event]) := by
  constructor
  · rintro ⟨before, other, hEq, hOther⟩
    obtain ⟨-, rfl⟩ := concat_inj.mp hEq
    exact hMiss hOther
  · rintro ⟨before, hEq⟩
    exact hEligible (concat_inj.mp hEq).2

theorem EndsBelow.quiet (h : EndsBelow target history) : Quiet history := by
  obtain ⟨before, count, rfl, -⟩ := h
  exact quiet_concat before (by rintro ⟨_, _, ⟨⟩, -⟩) (by rintro ⟨⟩)

theorem endsBelow_check (history : List (Event Adapters)) {count : Nat} (h : count < target) :
    EndsBelow target (history ++ [⟨.connectedPeers, count⟩]) := ⟨history, count, rfl, h⟩

theorem EndsMissing.not_eligible {source : Source} (h : EndsMissing source history) : ¬ EndsEligible history := by
  obtain ⟨before, event, rfl, asked, answer, rfl, -⟩ := h
  rintro ⟨other, hEq⟩
  cases (concat_inj.mp hEq).2

theorem EndsMissing.quiet {source : Source} (h : EndsMissing source history) (hSource : source ≠ .native) :
    Quiet history := by
  refine ⟨?_, h.not_eligible⟩
  obtain ⟨before, event, rfl, asked, answer, rfl, -⟩ := h
  rintro ⟨_, _, hEq, _, _, hEvent, -⟩
  obtain ⟨-, rfl⟩ := concat_inj.mp hEq
  cases hEvent
  exact hSource rfl

theorem endsMissing_discover {source : Source} {asked : Namespace}
    {answer : Except BootstrapError (List PeerCandidate)}
    (h : answer = .ok [] ∨ ∃ error, answer = .error error) :
    EndsMissing source (history ++ [⟨.discover source asked, answer⟩]) :=
  ⟨_, _, rfl, asked, answer, rfl, h⟩

theorem Quiet.callOrder (h : Quiet history) {query : AdapterQuery} (hGuarded : ¬ Guarded query) :
    CallOrder target history query where
  discover := by
    rintro asked rfl
    exact absurd trivial hGuarded
  announce := by
    rintro ttl rfl
    exact absurd trivial hGuarded
  after_native hMiss := absurd hMiss h.1
  after_eligible hEligible := absurd hEligible h.2

def StageMissed (target : Nat) (source : Source) (history : List (Event Adapters)) : Prop :=
  EndsBelow target history ∨ EndsMissing source history

def StageLeft (target : Nat) (source : Source) (history : List (Event Adapters)) : Bool → Prop
  | true => Quiet history
  | false => StageMissed target source history

theorem stageLeft_of_dialed {source : Source} {found : Bool}
    (h : Quiet history ∧ (found = false → EndsBelow target history)) : StageLeft target source history found := by
  cases found with
  | true => exact h.1
  | false => exact .inl (h.2 rfl)

theorem callOrder_dialLoop (h : Quiet history) {dials : Dials}
    (hDials : dials.size = 0 → EndsBelow controller.connectionTarget history) :
    Guarantees (CallOrder controller.connectionTarget)
      (fun trace found => Quiet trace ∧ (found = false → EndsBelow controller.connectionTarget trace)) history
      (controller.dialLoop dials) := by
  fun_induction BootstrapController.dialLoop controller dials generalizing history
  case case1 dials filled hEmpty =>
    have hZero := dials.size_eq_zero (lt_of_lt_of_le Nat.one_pos (le_max_right _ _)) hEmpty.1 hEmpty.2
    exact .pure ⟨h, fun _ => hDials hZero⟩
  case case2 dials filled hSome ihBegin ihFinish =>
    refine .ask_bind (h.callOrder id) fun progress => ?_
    have hPolled : Quiet (history ++ [⟨.pollDials _ _, progress⟩]) :=
      quiet_concat history (by rintro ⟨_, _, ⟨⟩, -⟩) (by rintro ⟨⟩)
    cases progress with
    | started hWaiting =>
      refine .ask_bind (hPolled.callOrder id) fun answer => ?_
      refine ihBegin hWaiting (quiet_concat _ (by rintro ⟨_, _, ⟨⟩, -⟩) (by rintro ⟨⟩)) fun hZero => ?_
      simp [Dials.begin, Dials.size] at hZero
    | finished index outcome =>
      refine .ask_bind (hPolled.callOrder id) fun count => ?_
      split
      · exact .pure ⟨quiet_concat _ (by rintro ⟨_, _, ⟨⟩, -⟩) (by rintro ⟨⟩), by rintro ⟨⟩⟩
      · rename_i hCount
        refine ihFinish index ?_ fun _ => endsBelow_check _ (not_le.mp hCount)
        exact EndsBelow.quiet (endsBelow_check _ (not_le.mp hCount))

theorem callOrder_dialCandidates (h : Quiet history) {peers : List PeerCandidate} (hPeers : peers ≠ [])
    (transitions : List BootstrapState) (stage : BootstrapState) :
    Guarantees (CallOrder controller.connectionTarget)
      (fun trace result => Quiet trace ∧ (result.1 = false → EndsBelow controller.connectionTarget trace)) history
      (controller.dialCandidates peers transitions stage) := by
  rw [BootstrapController.dialCandidates, if_neg hPeers]
  refine (callOrder_dialLoop h fun hZero => ?_).bind fun trace found hFound => ?_
  · simp [Dials.new, Dials.size, hPeers] at hZero
  · cases found with
    | true => exact .pure ⟨hFound.1, by rintro ⟨⟩⟩
    | false => exact .pure hFound

theorem callOrder_offerAll (h : Quiet history) (peers : List PeerCandidate) :
    Guarantees (CallOrder target) (fun trace _ => Quiet trace) history (offerAll peers) := by
  induction peers generalizing history with
  | nil => exact .pure h
  | cons peer rest ih =>
    refine .ask_bind (h.callOrder id) fun answer => ?_
    exact ih (quiet_concat _ (by rintro ⟨_, _, ⟨⟩, -⟩) (by rintro ⟨⟩))

theorem not_misses_some {source other : Source} {asked : Namespace} {peer : PeerCandidate}
    {rest : List PeerCandidate} : ¬ Misses other ⟨.discover source asked, .ok (peer :: rest)⟩ := by
  rintro ⟨_, _, ⟨⟩, hNone | ⟨_, hError⟩⟩
  · cases hNone
  · cases hError

theorem callOrder_discoverAndDial {source : Source} (transitions : List BootstrapState)
    (h : CallOrder controller.connectionTarget history (.discover source ns)) :
    Guarantees (CallOrder controller.connectionTarget)
      (fun trace result => StageLeft controller.connectionTarget source trace result.1) history
      (controller.discoverAndDial source ns transitions) := by
  refine .ask_bind h fun answer => ?_
  cases answer with
  | error error => exact .pure (.inr (endsMissing_discover (.inr ⟨error, rfl⟩)))
  | ok peers =>
    cases peers with
    | nil => exact .pure (.inr (endsMissing_discover (.inl rfl)))
    | cons peer rest =>
      refine (callOrder_dialCandidates (quiet_concat _ not_misses_some (by rintro ⟨⟩)) (List.cons_ne_nil _ _) _ _).mono ?_
      exact fun _ _ hEnd => stageLeft_of_dialed hEnd

theorem callOrder_scanAndDial (transitions : List BootstrapState)
    (h : CallOrder controller.connectionTarget history (.discover .registry ns)) :
    Guarantees (CallOrder controller.connectionTarget)
      (fun trace result => StageLeft controller.connectionTarget .registry trace result.1) history
      (controller.scanAndDial ns transitions) := by
  refine .ask_bind h fun answer => ?_
  cases answer with
  | error error => exact .pure (.inr (endsMissing_discover (.inr ⟨error, rfl⟩)))
  | ok peers =>
    cases peers with
    | nil => exact .pure (.inr (endsMissing_discover (.inl rfl)))
    | cons peer rest =>
      refine (callOrder_offerAll (quiet_concat _ not_misses_some (by rintro ⟨⟩)) _).bind fun trace _ hQuiet => ?_
      apply (callOrder_dialCandidates hQuiet (List.cons_ne_nil _ _) _ _).mono
      exact fun _ _ hEnd => stageLeft_of_dialed hEnd

theorem callOrder_promote (transitions : List BootstrapState)
    (h : StageMissed controller.connectionTarget .registry history) :
    Guarantees (CallOrder controller.connectionTarget) (fun trace _ => Quiet trace) history
      (controller.promote transitions) := by
  have hQuiet : Quiet history := h.elim EndsBelow.quiet fun hMiss => hMiss.quiet (by decide)
  refine .ask_bind (hQuiet.callOrder id) fun eligible => ?_
  cases eligible with
  | false => exact .pure (quiet_concat _ (by rintro ⟨_, _, ⟨⟩, -⟩) (by rintro ⟨⟩))
  | true =>
    refine .ask_bind ?_ fun answer => ?_
    · refine ⟨by rintro _ ⟨⟩, ?_, ?_, fun _ => ⟨_, rfl⟩⟩
      · rintro ttl -
        exact ⟨history, rfl, h⟩
      · rintro ⟨_, _, hEq, _, _, hEvent, -⟩
        obtain ⟨-, rfl⟩ := concat_inj.mp hEq
        cases hEvent
    · have hAnnounced : Quiet (history ++ [⟨.eligible, true⟩] ++ [⟨.announce _, answer⟩]) :=
        quiet_concat _ (by rintro ⟨_, _, ⟨⟩, -⟩) (by rintro ⟨⟩)
      cases answer with
      | error error => exact .pure hAnnounced
      | ok => exact .pure hAnnounced

theorem callOrder_runCycle (controller : BootstrapController) (ns : Namespace) :
    Guarantees (CallOrder controller.connectionTarget) (fun trace _ => Quiet trace) []
      (controller.runCycle ns) := by
  have hStart : Quiet [] := by
    constructor
    · rintro ⟨before, event, hEq, -⟩
      simp at hEq
    · rintro ⟨before, hEq⟩
      simp at hEq
  refine .ask_bind (hStart.callOrder id) fun count => ?_
  have hChecked : Quiet [⟨.connectedPeers, count⟩] :=
    quiet_concat [] (by rintro ⟨_, _, ⟨⟩, -⟩) (by rintro ⟨⟩)
  split
  · exact .pure hChecked
  apply (callOrder_discoverAndDial _ (hChecked.callOrder id)).bind
  rintro trace ⟨connected, transitions⟩ hCache
  cases connected with
  | true => exact .pure hCache
  | false =>
    have hQuiet : Quiet trace := hCache.elim EndsBelow.quiet fun hMiss => hMiss.quiet (by decide)
    apply (callOrder_discoverAndDial _ (hQuiet.callOrder id)).bind
    rintro trace ⟨connected, transitions⟩ hNative
    cases connected with
    | true => exact .pure hNative
    | false =>
      have hMissed : StageMissed controller.connectionTarget .native trace := hNative
      refine (callOrder_scanAndDial _ ⟨?_, ?_, ?_, ?_⟩).bind ?_
      · exact fun _ _ => hMissed
      · rintro _ ⟨⟩
      · exact fun _ => ⟨ns, rfl⟩
      · intro hEligible
        obtain hBelow | hMiss := hMissed
        · exact absurd hEligible hBelow.quiet.2
        · exact absurd hEligible hMiss.not_eligible
      · rintro trace ⟨connected, transitions⟩ hRegistry
        cases connected with
        | true => exact .pure hRegistry
        | false => exact callOrder_promote _ hRegistry

end Order

/-- A run so far: either `next` is the call it makes now, or it has come to its end. -/
def RunSoFar (controller : BootstrapController) (ns : Namespace) (history : List Moment) :
    Option AdapterQuery → Prop
  | some query => (controller.runCycle ns).Reaches (events history) query
  | none => ∃ result, (controller.runCycle ns).Runs (events history) result

/-- A call made in a run so far, with what came before it. -/
def Invoked (history : List Moment) (next : Option AdapterQuery) (before : List Moment) (query : AdapterQuery) :
    Prop :=
  (before = history ∧ next = some query) ∨
    ∃ moment after, history = before ++ moment :: after ∧ moment.event.query = query

/-- No source of candidates comes back empty-handed to a node that has got connected meanwhile, of
native discovery at any time and of the registry where the node then finds itself eligible. -/
structure MissesBelow (target : Nat) (history : List Moment) : Prop where
  native : ∀ moment ∈ history, Misses .native moment.event → moment.connected < target
  registry : ∀ before moment follow after, history = before ++ moment :: follow :: after →
    Misses .registry moment.event → follow.event = ⟨.eligible, true⟩ → moment.connected < target

section Timed

variable {controller : BootstrapController} {ns : Namespace} {start : Nat} {history before : List Moment}
  {next : Option AdapterQuery} {query : AdapterQuery}

theorem events_append (history more : List Moment) : events (history ++ more) = events history ++ events more :=
  List.map_append

theorem events_eq_concat {timed : List Moment} {earlier : List (Event Adapters)} {event : Event Adapters}
    (h : events timed = earlier ++ [event]) :
    ∃ front moment, timed = front ++ [moment] ∧ events front = earlier ∧ moment.event = event := by
  obtain ⟨front, last, rfl, hFront, hLast⟩ := List.map_eq_append_iff.mp h
  obtain ⟨moment, rfl, hMoment⟩ := List.map_eq_singleton_iff.mp hLast
  exact ⟨front, moment, rfl, hFront, hMoment⟩

theorem RunSoFar.callOrder (h : RunSoFar controller ns history next) (hInvoked : Invoked history next before query) :
    CallOrder controller.connectionTarget (events before) query := by
  have hCycle := callOrder_runCycle controller ns
  obtain ⟨rfl, rfl⟩ | ⟨moment, after, rfl, rfl⟩ := hInvoked
  · exact hCycle.reaches h
  · rw [RunSoFar.eq_def] at h
    split at h
    · rw [events_append] at h
      exact hCycle.reaches h.before
    · obtain ⟨result, h⟩ := h
      rw [events_append] at h
      exact hCycle.reaches h.reaches

theorem RunSoFar.exists_invoked {moment : Moment} {after : List Moment}
    (h : RunSoFar controller ns (before ++ moment :: after) next) (hNot : ¬ Quiet (events (before ++ [moment]))) :
    ∃ query, Invoked (before ++ moment :: after) next (before ++ [moment]) query := by
  cases after with
  | nil =>
    cases next with
    | some query => exact ⟨query, .inl ⟨rfl, rfl⟩⟩
    | none =>
      obtain ⟨result, h⟩ := h
      exact absurd ((callOrder_runCycle controller ns).runs h) hNot
  | cons follow rest =>
    exact ⟨follow.event.query, .inr ⟨follow, rest, by simp, rfl⟩⟩

theorem Invoked.exists_append (h : Invoked history next before query) : ∃ after, history = before ++ after := by
  obtain ⟨rfl, -⟩ | ⟨moment, after, rfl, -⟩ := h
  · exact ⟨[], (List.append_nil _).symm⟩
  · exact ⟨_, rfl⟩

theorem countAfter_of_endsBelow {target : Nat} (h : Coherent start before) (hBelow : EndsBelow target (events before)) :
    countAfter start before < target := by
  obtain ⟨earlier, count, hEvents, hCount⟩ := hBelow
  obtain ⟨front, moment, rfl, -, hEvent⟩ := events_eq_concat hEvents
  obtain ⟨-, hFollows, -⟩ := coherent_append.mp h
  rw [Moment.Follows, hEvent] at hFollows
  rw [countAfter_concat]
  exact lt_of_eq_of_lt hFollows.symm hCount

theorem countAfter_eligible {follow : Moment} {eligible : Bool} (h : Coherent start (before ++ [follow]))
    (hEvent : follow.event = ⟨.eligible, eligible⟩) :
    countAfter start (before ++ [follow]) = countAfter start before := by
  obtain ⟨-, hFollows, -⟩ := coherent_append.mp h
  rw [Moment.Follows, hEvent] at hFollows
  rw [countAfter_concat]
  exact hFollows

theorem missesBelow_of_guarded (hCoherent : Coherent start history) (hRun : RunSoFar controller ns history next)
    (h : ∀ before query, Invoked history next before query → Guarded query →
      countAfter start before < controller.connectionTarget) :
    MissesBelow controller.connectionTarget history where
  native := by
    intro moment hMem hMiss
    obtain ⟨front, after, rfl⟩ := List.append_of_mem hMem
    have hEnds : EndsMissing .native (events (front ++ [moment])) :=
      ⟨events front, moment.event, events_append _ _, hMiss⟩
    obtain ⟨query, hInvoked⟩ := hRun.exists_invoked fun hQuiet => hQuiet.1 hEnds
    obtain ⟨asked, rfl⟩ := (hRun.callOrder hInvoked).after_native hEnds
    simpa only [countAfter_concat] using h _ _ hInvoked trivial
  registry := by
    rintro front moment follow after rfl hMiss hEvent
    have hSplit : front ++ moment :: follow :: after = (front ++ [moment]) ++ follow :: after := by simp
    rw [hSplit] at hRun hCoherent h
    have hEnds : EndsEligible (events (front ++ [moment] ++ [follow])) :=
      ⟨events (front ++ [moment]), by rw [events_append, ← hEvent]; rfl⟩
    obtain ⟨query, hInvoked⟩ := hRun.exists_invoked fun hQuiet => hQuiet.2 hEnds
    obtain ⟨ttl, rfl⟩ := (hRun.callOrder hInvoked).after_eligible hEnds
    have hCount := h _ _ hInvoked trivial
    have hFollow : (front ++ [moment]) ++ follow :: after = (front ++ [moment] ++ [follow]) ++ after := by simp
    rw [hFollow] at hCoherent
    rwa [countAfter_eligible (coherent_append.mp hCoherent).1 hEvent, countAfter_concat] at hCount

theorem guarded_of_missesBelow (hCoherent : Coherent start history) (hRun : RunSoFar controller ns history next)
    (h : MissesBelow controller.connectionTarget history) (hInvoked : Invoked history next before query)
    (hGuarded : Guarded query) : countAfter start before < controller.connectionTarget := by
  have hOrder := hRun.callOrder hInvoked
  obtain ⟨after, rfl⟩ := hInvoked.exists_append
  have hBefore := (coherent_append.mp hCoherent).1
  cases query with
  | discover source asked =>
    cases source with
    | registry =>
      obtain hBelow | ⟨earlier, event, hEvents, hMiss⟩ := hOrder.discover asked rfl
      · exact countAfter_of_endsBelow hBefore hBelow
      · obtain ⟨front, moment, rfl, -, rfl⟩ := events_eq_concat hEvents
        rw [countAfter_concat]
        exact h.native moment (by simp) hMiss
    | cache => exact hGuarded.elim
    | native => exact hGuarded.elim
  | announce ttl =>
    obtain ⟨earlier, hEvents, hMissed⟩ := hOrder.announce ttl rfl
    obtain ⟨front, follow, rfl, rfl, hFollow⟩ := events_eq_concat hEvents
    rw [countAfter_eligible hBefore hFollow]
    obtain hBelow | ⟨earlier, event, hEvents, hMiss⟩ := hMissed
    · exact countAfter_of_endsBelow (coherent_append.mp hBefore).1 hBelow
    · obtain ⟨front, moment, rfl, -, rfl⟩ := events_eq_concat hEvents
      rw [countAfter_concat]
      exact h.registry front moment follow after (by simp) hMiss hFollow
  | connectedPeers => exact hGuarded.elim
  | addVerifiedPeer peer => exact hGuarded.elim
  | pollDials waiting inFlight => exact hGuarded.elim
  | connect peer timeout => exact hGuarded.elim
  | eligible => exact hGuarded.elim

end Timed

/-- In a run so far no guarded call finds the node connected exactly when no source came back
empty-handed to a node that had got connected while it waited for the source. -/
theorem guarded_below_target_iff (controller : BootstrapController) (ns : Namespace) {start : Nat}
    {history : List Moment} {next : Option AdapterQuery} (hCoherent : Coherent start history)
    (hRun : RunSoFar controller ns history next) :
    (∀ before query, Invoked history next before query → Guarded query →
      countAfter start before < controller.connectionTarget) ↔
    MissesBelow controller.connectionTarget history :=
  ⟨missesBelow_of_guarded hCoherent hRun, fun h _ _ hInvoked hGuarded =>
    guarded_of_missesBelow hCoherent hRun h hInvoked hGuarded⟩

def lonelyRun : List Moment := isolatedRun.map fun event => ⟨event, 0⟩

theorem guarded_below_target_iff_lonely :
    (∀ before query, Invoked lonelyRun none before query → Guarded query →
      countAfter 0 before < seedController.connectionTarget) ↔
    MissesBelow seedController.connectionTarget lonelyRun := by
  have hCoherent : Coherent 0 lonelyRun := by
    simp [Coherent, lonelyRun, isolatedRun, Moment.Follows]
  have hRuns : RunSoFar seedController testNamespace lonelyRun none :=
    ⟨.ok ⟨.backoff, none, true, [.start, .cacheDiscovery, .nativeDiscovery, .resurrectScan, .dialing,
      .isolated, .announceSelf, .backoff]⟩, Prog.runs_of_replay (by decide +kernel)⟩
  exact guarded_below_target_iff seedController testNamespace hCoherent hRuns

/-- A node that somebody connects to while native discovery looks in vain. -/
def inboundRun : List Moment :=
  [⟨⟨.connectedPeers, (0 : Nat)⟩, 0⟩, ⟨⟨.discover .cache testNamespace, .ok []⟩, 0⟩,
    ⟨⟨.discover .native testNamespace, .ok []⟩, 1⟩]

theorem registry_read_while_connected :
    ¬ ∀ (controller : BootstrapController) (ns : Namespace) (start : Nat) (history : List Moment)
      (next : Option AdapterQuery), Coherent start history → RunSoFar controller ns history next →
      ∀ before query, Invoked history next before query → Guarded query →
        countAfter start before < controller.connectionTarget := by
  intro h
  have hReaches : (seedController.runCycle testNamespace).Reaches (events inboundRun)
      (.discover .registry testNamespace) := by
    exact Prog.reaches_of_awaits (by decide)
  have hCoherent : Coherent 0 inboundRun := by simp [Coherent, inboundRun, Moment.Follows]
  have hBelow := h seedController testNamespace 0 inboundRun (some (.discover .registry testNamespace)) hCoherent
    hReaches inboundRun _ (.inl ⟨rfl, rfl⟩) trivial
  exact absurd hBelow (by decide)

end Resurrect.Bootstrap
