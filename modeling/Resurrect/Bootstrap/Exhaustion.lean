import Resurrect.Bootstrap.BoundedDialing
import Mathlib.Data.List.Induction

/-! # A cycle that gives up

A cycle that ends without enough peers has dialed every candidate its sources
answered, in their order.
-/

namespace Resurrect.Bootstrap

open Resurrect.Core Interaction

def dialOf : Event Adapters → Option PeerCandidate
  | ⟨.connect peer _, _⟩ => some peer
  | _ => none

def answeredOf : Event Adapters → List PeerCandidate
  | ⟨.discover _ _, .ok peers⟩ => peers
  | _ => []

def dialed (history : List (Event Adapters)) : List PeerCandidate := history.filterMap dialOf

def answeredPeers (history : List (Event Adapters)) : List PeerCandidate := history.flatMap answeredOf

theorem dialed_append (history more : List (Event Adapters)) :
    dialed (history ++ more) = dialed history ++ dialed more :=
  List.filterMap_append

theorem answeredPeers_append (history more : List (Event Adapters)) :
    answeredPeers (history ++ more) = answeredPeers history ++ answeredPeers more := List.flatMap_append

/-- The candidates answered in a history are the ones dialed in it. -/
def DialedAll (history : List (Event Adapters)) : Prop := dialed history = answeredPeers history

theorem DialedAll.append {history more : List (Event Adapters)} (h : DialedAll history) (hMore : DialedAll more) :
    DialedAll (history ++ more) := by
  rw [DialedAll, dialed_append, answeredPeers_append, h, hMore]

/-- The queries that are no discovery. -/
def Undiscovering : AdapterQuery → Prop
  | .discover .. => False
  | _ => True

/-- The queries that neither ask for candidates nor dial them. -/
def Quiescent : AdapterQuery → Prop
  | .connect .. => False
  | .discover .. => False
  | _ => True

theorem dialOf_eq_none {event : Event Adapters} (h : Quiescent event.query) : dialOf event = none := by
  obtain ⟨query, answer⟩ := event
  cases query <;> first | rfl | exact h.elim

theorem answeredOf_eq_nil {event : Event Adapters} (h : Undiscovering event.query) : answeredOf event = [] := by
  obtain ⟨query, answer⟩ := event
  cases query <;> first | rfl | exact h.elim

theorem answeredPeers_eq_nil {history : List (Event Adapters)} (h : ∀ event ∈ history, Undiscovering event.query) :
    answeredPeers history = [] :=
  List.flatMap_eq_nil_iff.mpr fun event hMem => answeredOf_eq_nil (h event hMem)

theorem Quiescent.undiscovering {query : AdapterQuery} (h : Quiescent query) : Undiscovering query := by
  cases query <;> trivial

theorem silent_of_quiescent {history : List (Event Adapters)} (h : ∀ event ∈ history, Quiescent event.query) :
    dialed history = [] ∧ answeredPeers history = [] := by
  refine ⟨List.filterMap_eq_nil_iff.mpr fun event hMem => dialOf_eq_none (h event hMem), ?_⟩
  exact answeredPeers_eq_nil fun event hMem => (h event hMem).undiscovering

theorem started_ofHistory (history : List (Event Adapters)) :
    (DialRecord.ofHistory history).started = dialed history := by
  induction history using List.reverseRecOn with
  | nil => rfl
  | append_singleton history event ih =>
    rw [DialRecord.ofHistory_concat, dialed, filterMap_concat, ← dialed, ← ih]
    obtain ⟨query, answer⟩ := event
    cases query with
    | connect peer timeout => rfl
    | pollDials waiting inFlight =>
      cases answer <;> exact (List.append_nil _).symm
    | _ => exact (List.append_nil _).symm

variable {controller : BootstrapController} {ns : Namespace} {transitions after : List BootstrapState}
  {trace : List (Event Adapters)}

theorem asks_dialLoop (dials : Dials) : (controller.dialLoop dials).Asks Undiscovering := by
  fun_induction BootstrapController.dialLoop controller dials
  case case1 => exact Prog.asks_pure _
  case case2 dials filled hSome ihBegin ihFinish =>
    refine Prog.asks_ask_bind trivial fun progress => ?_
    cases progress with
    | started hWaiting => exact Prog.asks_ask_bind trivial fun _ => ihBegin hWaiting
    | finished index outcome =>
      refine Prog.asks_ask_bind trivial fun count => ?_
      split
      · exact Prog.asks_pure _
      · exact ihFinish index

/-- A stage that ends without enough peers has dialed its whole list and asked no source. -/
theorem dialed_dialCandidates {peers : List PeerCandidate} {source : BootstrapState}
    (h : (controller.dialCandidates peers transitions source).Runs trace (false, after)) :
    dialed trace = peers ∧ answeredPeers trace = [] := by
  rw [BootstrapController.dialCandidates] at h
  split at h
  · rename_i hPeers
    obtain ⟨rfl, -⟩ := h
    exact ⟨hPeers.symm, rfl⟩
  · obtain ⟨loopTrace, found, rest, rfl, hLoop, hRest⟩ := Prog.runs_bind.mp h
    cases found with
    | true => cases hRest.2
    | false =>
      obtain ⟨rfl, -⟩ := hRest
      rw [List.append_nil]
      have hReturn := (guarantees_dialLoop_bounded (Dialing.new controller peers)).runs hLoop
      obtain ⟨hStarted, -, -⟩ := hReturn.exhausted rfl
      rw [List.nil_append, started_ofHistory] at hStarted
      exact ⟨hStarted, answeredPeers_eq_nil ((asks_dialLoop _).runs hLoop)⟩

theorem dialedAll_discoverAndDial {source : Source}
    (h : (controller.discoverAndDial source ns transitions).Runs trace (false, after)) : DialedAll trace := by
  obtain ⟨answer, rest, rfl, hRest⟩ := Prog.runs_ask_bind.mp h
  cases answer with
  | error error =>
    obtain ⟨rfl, -⟩ := hRest
    rfl
  | ok peers =>
    obtain ⟨hDialed, hAnswered⟩ := dialed_dialCandidates hRest
    change dialed rest = peers ++ answeredPeers rest
    rw [hDialed, hAnswered, List.append_nil]

theorem asks_offerAll (peers : List PeerCandidate) : (offerAll peers).Asks Quiescent := by
  induction peers with
  | nil => exact Prog.asks_pure _
  | cons peer rest ih => exact Prog.asks_ask_bind trivial fun _ => ih

theorem dialedAll_scanAndDial (h : (controller.scanAndDial ns transitions).Runs trace (false, after)) :
    DialedAll trace := by
  obtain ⟨answer, rest, rfl, hRest⟩ := Prog.runs_ask_bind.mp h
  cases answer with
  | error error =>
    obtain ⟨rfl, -⟩ := hRest
    rfl
  | ok peers =>
    obtain ⟨offers, _, dials, rfl, hOffers, hDials⟩ := Prog.runs_bind.mp hRest
    obtain ⟨hNoDials, hNoAnswers⟩ := silent_of_quiescent ((asks_offerAll peers).runs hOffers)
    obtain ⟨hDialed, hAnswered⟩ := dialed_dialCandidates hDials
    change dialed (offers ++ dials) = peers ++ answeredPeers (offers ++ dials)
    rw [dialed_append, hNoDials, hDialed, answeredPeers_append, hNoAnswers, hAnswered, List.append_nil,
      List.append_nil, List.nil_append]

theorem asks_promote : (controller.promote transitions).Asks Quiescent := by
  refine Prog.asks_ask_bind trivial fun eligible => ?_
  cases eligible with
  | false => exact Prog.asks_pure _
  | true =>
    refine Prog.asks_ask_bind trivial fun answer => ?_
    cases answer <;> exact Prog.asks_pure _

/-- A cycle that does not end connected has dialed all the candidates it was answered. -/
theorem dialedAll_runCycle {result : Except BootstrapError BootstrapOutcome}
    (h : (controller.runCycle ns).Runs trace result)
    (hIsolated : ∀ outcome, result = .ok outcome → outcome.state ≠ .connected) : DialedAll trace := by
  obtain ⟨count, rest, rfl, hRest⟩ := Prog.runs_ask_bind.mp h
  clear h
  suffices DialedAll rest from this
  split at hRest
  · exact absurd rfl (hIsolated _ hRest.2)
  obtain ⟨cached, ⟨connected, middle⟩, rest, rfl, hCache, h⟩ := Prog.runs_bind.mp hRest
  cases connected with
  | true => exact absurd rfl (hIsolated _ h.2)
  | false =>
    refine (dialedAll_discoverAndDial hCache).append ?_
    obtain ⟨observed, ⟨connected, middle⟩, rest, rfl, hNative, h⟩ := Prog.runs_bind.mp h
    cases connected with
    | true => exact absurd rfl (hIsolated _ h.2)
    | false =>
      refine (dialedAll_discoverAndDial hNative).append ?_
      obtain ⟨scanned, ⟨connected, middle⟩, rest, rfl, hScan, h⟩ := Prog.runs_bind.mp h
      cases connected with
      | true => exact absurd rfl (hIsolated _ h.2)
      | false =>
        refine (dialedAll_scanAndDial hScan).append ?_
        obtain ⟨hNoDials, hNoAnswers⟩ := silent_of_quiescent (asks_promote.runs h)
        exact hNoDials.trans hNoAnswers.symm

end Resurrect.Bootstrap
