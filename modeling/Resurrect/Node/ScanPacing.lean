import Resurrect.Bootstrap.CycleContract
import Resurrect.Node.Supervisor
import Mathlib.Data.List.TakeWhile

/-! # Pauses between registry scans

A round that asks the registry and ends isolated waits before the next one. One
that ends connected does not, so whether the next scan comes after a pause is up
to the counts read until then: a peer that hangs up at once leaves no pause.
-/

namespace Resurrect.Node

open Resurrect.Core Interaction Bootstrap

section Observations

def asksRegistry : SupervisorQuery → Bool
  | .adapter (.discover .registry _) => true
  | _ => false

def waited : Event SupervisorIO → Bool
  | ⟨.waitOrShutdown _, false⟩ => true
  | _ => false

def readingOf : Event SupervisorIO → Option Nat
  | ⟨.adapter .connectedPeers, count⟩ => some count
  | _ => none

def readings (history : List (Event SupervisorIO)) : List Nat := history.filterMap readingOf

def beforeRegistry (history : List (Event SupervisorIO)) : List (Event SupervisorIO) :=
  history.takeWhile fun event => !asksRegistry event.query

end Observations

/-- The registry was asked, and no wait has been completed since. -/
def ScannedSinceWait (history : List (Event SupervisorIO)) : Prop :=
  ∃ before event after, history = before ++ event :: after ∧ asksRegistry event.query ∧
    ∀ other ∈ after, ¬ waited other

/-- Whenever the registry is asked, a wait has been completed since it was last asked. -/
def Paced (history : List (Event SupervisorIO)) (target : SupervisorQuery) : Prop :=
  ∀ before query, InvokedIn (I := SupervisorIO) history target before query → asksRegistry query →
    ¬ ScannedSinceWait before

def ReadsTarget (goal : Nat) (round : List (Event SupervisorIO)) : Prop :=
  ∃ count ∈ readings (beforeRegistry round), goal ≤ count

/-- Every round that began with a scan but no completed wait behind it, and came to its end or to the
registry's turn, read the target before that. -/
structure Steady (goal : Nat) (rounds : List (List (Event SupervisorIO))) (current : List (Event SupervisorIO))
    (target : SupervisorQuery) : Prop where
  completed : ∀ earlier round later, rounds = earlier ++ round :: later →
    ScannedSinceWait earlier.flatten → ReadsTarget goal round
  current : ∀ part query, InvokedIn (I := SupervisorIO) current target part query → asksRegistry query →
    ScannedSinceWait rounds.flatten → ReadsTarget goal current

/-- Nothing in a round so far but counts below the target. -/
structure Searched (goal : Nat) (part : List (Event SupervisorIO)) : Prop where
  below : ∀ count ∈ readings part, count < goal
  unscanned : ∀ event ∈ part, ¬ asksRegistry event.query
  unpaused : ∀ event ∈ part, ¬ waited event

section Scanned

variable {earlier part : List (Event SupervisorIO)} {goal : Nat}

theorem Searched.scannedSinceWait_iff (h : Searched goal part) :
    ScannedSinceWait (earlier ++ part) ↔ ScannedSinceWait earlier := by
  constructor
  · rintro ⟨before, event, after, hSplit, hAsks, hAfter⟩
    obtain ⟨rest, rfl, rfl⟩ | ⟨more, rfl, rfl⟩ := append_eq_append_cons hSplit
    · exact ⟨before, event, rest, rfl, hAsks, fun other hMem => hAfter other (List.mem_append_left _ hMem)⟩
    · exact absurd hAsks (h.unscanned event (by simp))
  · rintro ⟨before, event, after, rfl, hAsks, hAfter⟩
    refine ⟨before, event, after ++ part, by simp, hAsks, fun other hMem => ?_⟩
    exact (List.mem_append.mp hMem).elim (hAfter other) (h.unpaused other)

theorem not_asksRegistry_of_waited {event : Event SupervisorIO} (h : waited event) : ¬ asksRegistry event.query := by
  obtain ⟨query, answer⟩ := event
  cases query <;> first | cases h | rintro ⟨⟩

theorem not_scannedSinceWait_concat (history : List (Event SupervisorIO)) {event : Event SupervisorIO}
    (h : waited event) : ¬ ScannedSinceWait (history ++ [event]) := by
  rintro ⟨before, other, after, hSplit, hAsks, hAfter⟩
  obtain rfl | ⟨rest, last, rfl⟩ := List.eq_nil_or_concat after
  · obtain ⟨-, hEvent⟩ := List.append_inj' hSplit rfl
    rw [← List.singleton_inj.mp hEvent] at hAsks
    exact not_asksRegistry_of_waited h hAsks
  · have hLast : history ++ [event] = (before ++ other :: rest) ++ [last] := by simpa using hSplit
    obtain ⟨-, hEvent⟩ := List.append_inj' hLast rfl
    rw [List.singleton_inj.mp hEvent] at h
    exact hAfter last (by simp) h

theorem beforeRegistry_of_unscanned (h : ∀ event ∈ part, ¬ asksRegistry event.query) :
    beforeRegistry part = part := by
  apply List.takeWhile_eq_self_iff.mpr
  intro event hMem
  simpa using h event hMem

theorem Searched.not_readsTarget (h : Searched goal part) : ¬ ReadsTarget goal part := by
  rintro ⟨count, hMem, hGoal⟩
  rw [beforeRegistry_of_unscanned h.unscanned] at hMem
  exact absurd (h.below count hMem) (not_lt.mpr hGoal)

theorem Searched.not_readsTarget_scan (h : Searched goal part) {event : Event SupervisorIO}
    (hAsks : asksRegistry event.query) (rest : List (Event SupervisorIO)) :
    ¬ ReadsTarget goal (part ++ event :: rest) := by
  have hTurn : beforeRegistry (part ++ event :: rest) = beforeRegistry part := by
    rw [beforeRegistry, List.takeWhile_append_of_pos, List.takeWhile_cons_of_neg, List.append_nil]
    · exact (beforeRegistry_of_unscanned h.unscanned).symm
    · simpa using hAsks
    · exact fun other hMem => by simpa using h.unscanned other hMem
  rw [ReadsTarget, hTurn]
  exact h.not_readsTarget

end Scanned

section Round

variable {goal : Nat} {history : List (Event SupervisorIO)} {supervisor : Supervisor}

def AsksSearched (goal : Nat) (history : List (Event SupervisorIO)) (query : SupervisorQuery) : Prop :=
  asksRegistry query → Searched goal history

/-- A round that goes on to the next has asked the registry or read the target. -/
def Settled (goal : Nat) (history : List (Event SupervisorIO)) : Prop :=
  (∃ event ∈ history, asksRegistry event.query) ∨ ∃ count ∈ readings history, goal ≤ count

theorem Settled.append (h : Settled goal history) (more : List (Event SupervisorIO)) :
    Settled goal (history ++ more) := by
  obtain ⟨event, hMem, hAsks⟩ | ⟨count, hMem, hGoal⟩ := h
  · exact .inl ⟨event, List.mem_append_left _ hMem, hAsks⟩
  · refine .inr ⟨count, ?_, hGoal⟩
    rw [readings, List.filterMap_append]
    exact List.mem_append_left _ hMem

theorem Settled.readsTarget (h : Settled goal history) (hUnscanned : ∀ event ∈ history, ¬ asksRegistry event.query) :
    ReadsTarget goal history := by
  rw [ReadsTarget, beforeRegistry_of_unscanned hUnscanned]
  exact h.resolve_left fun ⟨event, hMem, hAsks⟩ => hUnscanned event hMem hAsks

/-- Calls that ask nothing of the registry, and leave a settled round settled. -/
def KeepsSettled {α : Type} (goal : Nat) (p : Prog SupervisorIO α) : Prop :=
  ∀ history, Settled goal history → Guarantees (AsksSearched goal) (fun trace _ => Settled goal trace) history p

theorem keepsSettled_of_asks {α : Type} {p : Prog SupervisorIO α} (h : p.Asks fun query => asksRegistry query = false) :
    KeepsSettled goal p := by
  intro history hSettled
  constructor
  · intro after target hReaches hAsks
    rw [h after target hReaches] at hAsks
    cases hAsks
  · intro after result hRuns
    exact hSettled.append after

theorem not_asksRegistry_of_housekeeping {query : SupervisorQuery} (h : Housekeeping query) :
    asksRegistry query = false := by
  rw [Housekeeping.eq_def] at h
  split at h <;> first | rfl | cases h

theorem keepsSettled_maintain (state : SupervisorState) (connected : Nat) :
    KeepsSettled goal (supervisor.maintain state connected) := by
  apply keepsSettled_of_asks
  intro history target hReaches
  obtain hRenew | hRest := reaches_maintain hReaches
  · obtain ⟨-, rfl⟩ | ⟨-, rfl⟩ := reaches_renew hRenew
    · rfl
    · rfl
  · exact not_asksRegistry_of_housekeeping hRest

theorem keepsSettled_conclude (state : SupervisorState) (result : Except BootstrapError BootstrapOutcome) :
    KeepsSettled goal (supervisor.conclude state result) := by
  apply keepsSettled_of_asks
  intro history target hReaches
  exact not_asksRegistry_of_housekeeping (asks_conclude state result history target hReaches)

end Round

section Cycle

variable {controller : BootstrapController} {inner : List (Event Adapters)}

theorem readings_lift (inner : List (Event Adapters)) : readings (inner.map adapterPart.event) = checks inner := by
  rw [readings, List.filterMap_map, checks]
  apply List.filterMap_congr
  intro event _
  obtain ⟨query, answer⟩ := event
  cases query <;> rfl

theorem not_waited_lift (event : Event Adapters) : ¬ waited (adapterPart.event event) := by
  obtain ⟨query, answer⟩ := event
  cases query <;> rintro ⟨⟩

theorem sourceOf_of_asksRegistry {event : Event Adapters} (h : asksRegistry (adapterPart.event event).query) :
    sourceOf event = some .registry := by
  obtain ⟨query, answer⟩ := event
  cases query with
  | discover source asked =>
    cases source with
    | registry => rfl
    | cache => cases h
    | native => cases h
  | _ => cases h

theorem searched_of_allowed {ns asked : Namespace} (h : Allowed controller ns inner (.discover .registry asked))
    {count : Nat} (hCount : count < controller.connectionTarget) :
    Searched controller.connectionTarget ([⟨.adapter .connectedPeers, count⟩] ++ inner.map adapterPart.event) := by
  obtain ⟨-, hSources, hBelow⟩ := h
  constructor
  · intro other hMem
    rw [readings, List.filterMap_append, List.mem_append] at hMem
    obtain hMem | hMem := hMem
    · rw [List.mem_singleton.mp hMem]
      exact hCount
    · rw [← readings, readings_lift] at hMem
      exact hBelow other hMem
  · intro event hMem hAsks
    obtain rfl | hMem := List.mem_cons.mp hMem
    · cases hAsks
    · obtain ⟨source, hSource, rfl⟩ := List.mem_map.mp hMem
      have hRegistry := List.mem_filterMap.mpr ⟨source, hSource, sourceOf_of_asksRegistry hAsks⟩
      rw [← sources, hSources] at hRegistry
      revert hRegistry
      decide
  · intro event hMem
    obtain rfl | hMem := List.mem_cons.mp hMem
    · rintro ⟨⟩
    · obtain ⟨source, -, rfl⟩ := List.mem_map.mp hMem
      exact not_waited_lift source

theorem settled_of_cycleResult {result : Except BootstrapError BootstrapOutcome}
    (h : CycleResult controller inner result) (before : List (Event SupervisorIO)) :
    Settled controller.connectionTarget (before ++ inner.map adapterPart.event) := by
  by_cases hBelow : ∀ count ∈ checks inner, count < controller.connectionTarget
  · have hRegistry : Source.registry ∈ sources inner := by
      rw [(h.isolated hBelow).1]
      decide
    obtain ⟨event, hMem, hSource⟩ := List.mem_filterMap.mp hRegistry
    refine .inl ⟨adapterPart.event event, List.mem_append_right _ (List.mem_map_of_mem hMem), ?_⟩
    obtain ⟨query, answer⟩ := event
    cases query with
    | discover source asked =>
      cases source with
      | registry => rfl
      | cache => cases hSource
      | native => cases hSource
    | _ => cases hSource
  · push Not at hBelow
    obtain ⟨count, hMem, hGoal⟩ := hBelow
    refine .inr ⟨count, ?_, hGoal⟩
    rw [readings, List.filterMap_append, ← readings, ← readings, readings_lift]
    exact List.mem_append_right _ hMem

theorem guarantees_cycle (ns : Namespace) {count : Nat} (hCount : count < controller.connectionTarget) :
    Guarantees (AsksSearched controller.connectionTarget)
      (fun trace _ => Settled controller.connectionTarget trace) [⟨.adapter .connectedPeers, count⟩]
      (adapterPart.lift (controller.runCycle ns)) := by
  have hCycle := guarantees_runCycle controller ns
  constructor
  · intro after target hReaches hAsks
    obtain ⟨inner, query, rfl, rfl, hInner⟩ := adapterPart.reaches_lift.mp hReaches
    cases query with
    | discover source asked =>
      cases source with
      | registry => exact searched_of_allowed (hCycle.reaches hInner) hCount
      | cache => cases hAsks
      | native => cases hAsks
    | _ => cases hAsks
  · intro after result hRuns
    obtain ⟨inner, rfl, hInner⟩ := adapterPart.runs_lift.mp hRuns
    exact settled_of_cycleResult (hCycle.runs hInner) _

end Cycle

theorem guarantees_round (supervisor : Supervisor) (state : SupervisorState) :
    Guarantees (AsksSearched (connectionTarget supervisor.policy.bootstrap))
      (fun trace _ => Settled (connectionTarget supervisor.policy.bootstrap) trace) [] (supervisor.round state) := by
  rw [Supervisor.round]
  refine .ask_bind (by rintro ⟨⟩) fun count => ?_
  split
  · rename_i hGoal
    exact keepsSettled_maintain state count _ (.inr ⟨count, List.mem_singleton_self count, hGoal⟩)
  · rename_i hGoal
    have hTarget := connectionTarget_eq ⟨supervisor.policy.bootstrap⟩
    rw [hTarget] at hGoal ⊢
    apply (guarantees_cycle supervisor.namespace (not_le.mp hGoal)).bind
    intro trace result hSettled
    exact keepsSettled_conclude state result trace hSettled

section Run

variable {supervisor : Supervisor} {rounds : List (List (Event SupervisorIO))}
  {current : List (Event SupervisorIO)} {target : SupervisorQuery}

theorem searched_of_invoked {state : SupervisorState} {part : List (Event SupervisorIO)} {query : SupervisorQuery}
    (h : (supervisor.round state).Reaches part query) (hAsks : asksRegistry query) :
    Searched (connectionTarget supervisor.policy.bootstrap) part := (guarantees_round supervisor state).reaches h hAsks

theorem steady_of_paced (hRun : supervisor.RunReaches rounds current target)
    (h : Paced (rounds.flatten ++ current) target) :
    Steady (connectionTarget supervisor.policy.bootstrap) rounds current target := by
  obtain ⟨state, hRounds, hCurrent⟩ := hRun
  constructor
  · rintro earlier round later rfl hScanned
    obtain ⟨before, next, hRound⟩ := hRounds.runs_of_mem (List.mem_append_right _ (List.mem_cons_self ..))
    apply ((guarantees_round supervisor before).runs hRound).readsTarget
    intro event hMem hAsks
    obtain ⟨part, rest, rfl⟩ := List.append_of_mem hMem
    have hSearched := searched_of_invoked hRound.reaches hAsks
    refine h (earlier.flatten ++ part) event.query (.inr ⟨event, rest ++ later.flatten ++ current, ?_, rfl⟩) hAsks
      (hSearched.scannedSinceWait_iff.mpr hScanned)
    simp
  · intro part query hInvoked hAsks hScanned
    have hSearched := searched_of_invoked (hCurrent.of_invokedIn hInvoked) hAsks
    refine absurd (hSearched.scannedSinceWait_iff.mpr hScanned) (h _ query ?_ hAsks)
    obtain ⟨rfl, rfl⟩ | ⟨event, after, rfl, rfl⟩ := hInvoked
    · exact .inl ⟨rfl, rfl⟩
    · exact .inr ⟨event, after, by simp, rfl⟩

theorem paced_of_steady (hRun : supervisor.RunReaches rounds current target)
    (h : Steady (connectionTarget supervisor.policy.bootstrap) rounds current target) :
    Paced (rounds.flatten ++ current) target := by
  obtain ⟨state, hRounds, hCurrent⟩ := hRun
  intro before query hInvoked hAsks hScanned
  obtain ⟨earlier, round, later, part, rfl, rfl, event, rest, rfl, rfl⟩ | ⟨part, rfl, hPart⟩ := hInvoked.round
  · obtain ⟨begun, next, hRound⟩ := hRounds.runs_of_mem (List.mem_append_right _ (List.mem_cons_self ..))
    have hSearched := searched_of_invoked hRound.reaches hAsks
    have hReads := h.completed _ _ _ rfl (hSearched.scannedSinceWait_iff.mp hScanned)
    exact hSearched.not_readsTarget_scan hAsks rest hReads
  · have hSearched := searched_of_invoked (hCurrent.of_invokedIn hPart) hAsks
    have hReads := h.current part query hPart hAsks (hSearched.scannedSinceWait_iff.mp hScanned)
    obtain ⟨rfl, rfl⟩ | ⟨event, rest, rfl, rfl⟩ := hPart
    · exact hSearched.not_readsTarget hReads
    · exact hSearched.not_readsTarget_scan hAsks rest hReads

end Run

/-- In every run so far, the registry is asked again only after a completed wait exactly when no round
that begins right behind a scan comes to the registry's turn without having read the target. -/
theorem paced_iff_steady (supervisor : Supervisor) {rounds : List (List (Event SupervisorIO))}
    {current : List (Event SupervisorIO)} {target : SupervisorQuery}
    (hRun : supervisor.RunReaches rounds current target) :
    Paced (rounds.flatten ++ current) target ↔
      Steady (connectionTarget supervisor.policy.bootstrap) rounds current target :=
  ⟨steady_of_paced hRun, paced_of_steady hRun⟩

def seedSupervisor : Supervisor where
  «namespace» := testNamespace
  peerId := "12D3KooWEyoppNCUx8Yx66oV9fJnriXwCcXwDDUA2kj6vnc6iDEp"
  policy := ⟨seedController.policy, ⟨15, 0⟩, ⟨5, 0⟩, ⟨300, 0⟩, ⟨2592000, 0⟩⟩
  statusFile := none

def noCounters : TelemetrySnapshot := ⟨0, 0, 0, 0, 0, 0⟩

def searchPart : List (Event SupervisorIO) :=
  let search : List (Event Adapters) := [⟨.connectedPeers, (0 : Nat)⟩, ⟨.connectedPeers, (0 : Nat)⟩,
    ⟨.discover .cache testNamespace, .ok []⟩, ⟨.discover .native testNamespace, .ok []⟩]
  search.map adapterPart.event

def dialedPart : List (Event SupervisorIO) :=
  let dialed : List (Event Adapters) := [⟨.addVerifiedPeer (testPeer 1), .ok ()⟩,
    ⟨.pollDials 1 0, .started Nat.zero_lt_one⟩, ⟨.connect (testPeer 1) ⟨8, 0⟩, ()⟩,
    ⟨.pollDials 0 1, .finished ⟨0, Nat.zero_lt_one⟩ (.handshake true)⟩, ⟨.connectedPeers, (1 : Nat)⟩, ⟨.connectedPeers, (1 : Nat)⟩]
  dialed.map adapterPart.event ++ [⟨.telemetrySnapshot, noCounters⟩, ⟨.unixTime, (1000 : UInt64)⟩]

def scanEvent : Event SupervisorIO := ⟨.adapter (.discover .registry testNamespace), .ok [testPeer 1]⟩

def scanRound : List (Event SupervisorIO) := searchPart ++ scanEvent :: dialedPart

def restRound : List (Event SupervisorIO) :=
  [⟨.adapter .connectedPeers, (1 : Nat)⟩, ⟨.renewalDue, false⟩, ⟨.telemetrySnapshot, noCounters⟩,
    ⟨.unixTime, (1000 : UInt64)⟩, ⟨.waitOrShutdown ⟨15, 0⟩, false⟩]

def dialedState : SupervisorState := ⟨0, some .resurrectScan⟩

theorem rounds_scanRound : Rounds seedSupervisor.round .new [scanRound] dialedState :=
  .concat .nil (Prog.runs_of_replay (by decide +kernel))

/-- A peer that hangs up at once: the registry is asked again with no wait in between. -/
theorem registry_polled_without_pause : ¬ ∀ (supervisor : Supervisor) (rounds : List (List (Event SupervisorIO)))
    (current : List (Event SupervisorIO)) (target : SupervisorQuery),
    supervisor.RunReaches rounds current target → Paced (rounds.flatten ++ current) target := by
  intro h
  have hSearch : (seedSupervisor.round dialedState).Reaches searchPart scanEvent.query :=
    Prog.reaches_of_awaits (by decide)
  have hPaced := h seedSupervisor [scanRound] searchPart scanEvent.query ⟨dialedState, rounds_scanRound, hSearch⟩
  refine hPaced _ _ (.inl ⟨rfl, rfl⟩) rfl ⟨searchPart, scanEvent, dialedPart ++ searchPart, rfl, rfl, ?_⟩
  decide

theorem paced_iff_steady_rested : Paced ([scanRound, restRound].flatten ++ searchPart) scanEvent.query := by
  have hRounds : Rounds seedSupervisor.round .new [scanRound, restRound] dialedState :=
    .concat rounds_scanRound (Prog.runs_of_replay (by decide))
  have hSearch : (seedSupervisor.round dialedState).Reaches searchPart scanEvent.query :=
    Prog.reaches_of_awaits (by decide)
  refine (paced_iff_steady seedSupervisor ⟨dialedState, hRounds, hSearch⟩).mpr ⟨?_, ?_⟩
  · rintro earlier round later hSplit hScanned
    obtain _ | ⟨first, _ | ⟨second, _ | _⟩⟩ := earlier
    · obtain ⟨before, event, after, hNil, -⟩ := hScanned
      simp at hNil
    · obtain ⟨-, rfl, -⟩ : _ ∧ restRound = round ∧ _ := by simpa using hSplit
      exact ⟨1, by decide, by decide⟩
    · simp at hSplit
    · simp at hSplit
  · intro part query _ _ hScanned
    exact absurd hScanned (not_scannedSinceWait_concat (scanRound ++ restRound.dropLast) rfl)

end Resurrect.Node
