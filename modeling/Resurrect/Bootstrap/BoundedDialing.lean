import Resurrect.Bootstrap.CycleContract
import Mathlib.Data.List.Perm.Basic

/-! # Bounded dialing

What the events of one dialing stage say was started, is outstanding and has
completed, whatever order the dials complete in and whatever the checks read.
-/

namespace Resurrect.Bootstrap

open Resurrect.Core Interaction

/-- The dials of a history: those begun, in order, and the positions in it of those outstanding and completed. -/
structure DialRecord where
  started : List PeerCandidate
  outstanding : List Nat
  completed : List (Nat × DialOutcome)
  deriving DecidableEq, Repr

namespace DialRecord

def complete (record : DialRecord) (index : Nat) (outcome : DialOutcome) : DialRecord where
  started := record.started
  outstanding := record.outstanding.eraseIdx index
  completed := record.completed ++ record.outstanding[index]?.toList.map fun position => (position, outcome)

def advance (record : DialRecord) : Event Adapters → DialRecord
  | ⟨.connect peer _, _⟩ => { record with
      started := record.started ++ [peer]
      outstanding := record.outstanding ++ [record.started.length] }
  | ⟨.pollDials _ _, .finished index outcome⟩ => record.complete index outcome
  | _ => record

def ofHistory (history : List (Event Adapters)) : DialRecord := history.foldl advance ⟨[], [], []⟩

theorem ofHistory_concat (history : List (Event Adapters)) (event : Event Adapters) :
    ofHistory (history ++ [event]) = (ofHistory history).advance event := by
  rw [ofHistory, List.foldl_append]
  rfl

/-- Each dial begun is outstanding or has completed once, and never both. -/
def Accounted (record : DialRecord) : Prop :=
  (record.outstanding ++ record.completed.map Prod.fst).Perm (List.range record.started.length)

theorem Accounted.begin {record : DialRecord} (h : record.Accounted) (peer : PeerCandidate) :
    Accounted ⟨record.started ++ [peer], record.outstanding ++ [record.started.length], record.completed⟩ := by
  rw [Accounted, List.length_append, List.length_singleton, List.range_succ, List.append_assoc]
  have hLast : ([record.started.length] ++ record.completed.map Prod.fst).Perm
      (record.completed.map Prod.fst ++ [record.started.length]) := List.perm_append_comm
  apply (hLast.append_left record.outstanding).trans
  rw [← List.append_assoc]
  exact h.append_right _

theorem Accounted.complete {record : DialRecord} (h : record.Accounted) {index : Nat}
    (hIndex : index < record.outstanding.length) (outcome : DialOutcome) :
    (record.complete index outcome).Accounted := by
  have hErase := List.getElem_cons_eraseIdx_perm hIndex
  rw [Accounted, DialRecord.complete, List.getElem?_eq_getElem hIndex, Option.toList_some, List.map_singleton,
    List.map_append, List.map_singleton]
  have hMove : (record.outstanding.eraseIdx index ++
      (record.completed.map Prod.fst ++ [record.outstanding[index]])).Perm
      (record.outstanding[index] :: (record.outstanding.eraseIdx index ++ record.completed.map Prod.fst)) := by
    rw [← List.append_assoc]
    exact List.perm_append_singleton ..
  exact hMove.trans ((hErase.append_right _).trans h)

end DialRecord

variable {controller : BootstrapController} {peers : List PeerCandidate} {dials : Dials}
  {history : List (Event Adapters)}

/-- A stage that stands at `dials` after its history, and has not found the node connected. -/
structure Dialing (controller : BootstrapController) (peers : List PeerCandidate) (history : List (Event Adapters))
    (dials : Dials) : Prop where
  order : (DialRecord.ofHistory history).started ++ dials.waiting ++ dials.pending = peers
  inFlight : (DialRecord.ofHistory history).outstanding.length = dials.inFlight.length
  room : dials.waiting.length + dials.inFlight.length ≤ max controller.policy.maximumParallelDials 1
  accounted : (DialRecord.ofHistory history).Accounted
  below : ∀ count ∈ checks history, count < controller.connectionTarget

namespace Dialing

theorem new (controller : BootstrapController) (peers : List PeerCandidate) : Dialing controller peers [] (.new peers) where
  order := rfl
  inFlight := rfl
  room := Nat.zero_le _
  accounted := List.Perm.refl _
  below := by simp [checks]

theorem refill (h : Dialing controller peers history dials) :
    Dialing controller peers history (dials.refill (max controller.policy.maximumParallelDials 1)) where
  order := by
    rw [← h.order, Dials.refill, List.append_assoc, List.append_assoc, List.append_assoc, List.take_append_drop]
  inFlight := h.inFlight
  room := by
    have hRoom := h.room
    simp only [Dials.refill, List.length_append, List.length_take]
    omega
  accounted := h.accounted
  below := h.below

theorem below_concat (h : Dialing controller peers history dials) {event : Event Adapters}
    (hCheck : ∀ count ∈ checkOf event, count < controller.connectionTarget) :
    ∀ count ∈ checks (history ++ [event]), count < controller.connectionTarget := by
  intro count hMem
  rw [checks_concat, List.mem_append, Option.mem_toList] at hMem
  exact hMem.elim (h.below count) (hCheck count)

theorem start (h : Dialing controller peers history dials) {waiting : Nat} (inFlight : Nat) (hWaiting : 0 < waiting) :
    Dialing controller peers (history ++ [⟨.pollDials waiting inFlight, .started hWaiting⟩]) dials where
  order := by rw [DialRecord.ofHistory_concat]; exact h.order
  inFlight := by rw [DialRecord.ofHistory_concat]; exact h.inFlight
  room := h.room
  accounted := by rw [DialRecord.ofHistory_concat]; exact h.accounted
  below := h.below_concat (by rintro _ ⟨⟩)

theorem check (h : Dialing controller peers history dials) {count : Nat} (hCount : count < controller.connectionTarget) :
    Dialing controller peers (history ++ [⟨.connectedPeers, count⟩]) dials where
  order := by rw [DialRecord.ofHistory_concat]; exact h.order
  inFlight := by rw [DialRecord.ofHistory_concat]; exact h.inFlight
  room := h.room
  accounted := by rw [DialRecord.ofHistory_concat]; exact h.accounted
  below := by
    apply h.below_concat
    rintro other ⟨⟩
    exact hCount

theorem connect (h : Dialing controller peers history dials) (hWaiting : 0 < dials.waiting.length) (timeout : Duration)
    (answer : Unit) :
    Dialing controller peers (history ++ [⟨.connect dials.waiting[0] timeout, answer⟩]) (dials.begin hWaiting) where
  order := by
    rw [DialRecord.ofHistory_concat, Dials.begin, ← h.order]
    dsimp only [DialRecord.advance]
    rw [List.append_assoc _ [_], List.singleton_append, List.getElem_zero, List.cons_head_tail]
  inFlight := by
    rw [DialRecord.ofHistory_concat, Dials.begin]
    simp only [DialRecord.advance, List.length_append, h.inFlight, List.length_singleton]
  room := by
    have hRoom := h.room
    simp only [Dials.begin, List.length_append, List.length_tail, List.length_singleton]
    omega
  accounted := by
    rw [DialRecord.ofHistory_concat]
    exact h.accounted.begin _
  below := h.below_concat (by rintro _ ⟨⟩)

theorem finish (h : Dialing controller peers history dials) (waiting : Nat) (index : Fin dials.inFlight.length)
    (outcome : DialOutcome) :
    Dialing controller peers (history ++ [⟨.pollDials waiting dials.inFlight.length, .finished index outcome⟩])
      (dials.finish index) where
  order := by rw [DialRecord.ofHistory_concat]; exact h.order
  inFlight := by
    have hIndex : index.val < (DialRecord.ofHistory history).outstanding.length := by
      rw [h.inFlight]
      exact index.isLt
    rw [DialRecord.ofHistory_concat, Dials.finish]
    simp only [DialRecord.advance, DialRecord.complete, List.length_eraseIdx_of_lt hIndex,
      List.length_eraseIdx_of_lt index.isLt, h.inFlight]
  room := by
    have hRoom := h.room
    simp only [Dials.finish, List.length_eraseIdx_of_lt index.isLt]
    omega
  accounted := by
    rw [DialRecord.ofHistory_concat]
    apply h.accounted.complete
    rw [h.inFlight]
    exact index.isLt
  below := h.below_concat (by rintro _ ⟨⟩)

end Dialing

/-- What a stage may invoke, as the events before it have it. -/
structure DialInvocation (controller : BootstrapController) (peers : List PeerCandidate) (history : List (Event Adapters))
    (target : AdapterQuery) : Prop where
  outstanding : (DialRecord.ofHistory history).outstanding.length ≤ max 1 controller.policy.maximumParallelDials
  started : (DialRecord.ofHistory history).started <+: peers
  accounted : (DialRecord.ofHistory history).Accounted
  below : ∀ count ∈ checks history, count < controller.connectionTarget
  connect : ∀ peer timeout, target = .connect peer timeout → timeout = controller.policy.perDialTimeout ∧
    (DialRecord.ofHistory history).outstanding.length < max 1 controller.policy.maximumParallelDials ∧
    (DialRecord.ofHistory history).started ++ [peer] <+: peers
  check : target = .connectedPeers → ∃ before waiting inFlight index outcome,
    history = before ++ [⟨.pollDials waiting inFlight, .finished index outcome⟩]

/-- What a stage returns: whether a check has found the target, and otherwise only with every dial over. -/
structure DialReturn (controller : BootstrapController) (peers : List PeerCandidate) (trace : List (Event Adapters))
    (found : Bool) : Prop where
  found_iff : found = true ↔ ∃ count ∈ checks trace, controller.connectionTarget ≤ count
  found_last : found = true → ∃ before waiting inFlight index outcome count,
    trace = before ++ [⟨.pollDials waiting inFlight, .finished index outcome⟩] ++ [⟨.connectedPeers, count⟩] ∧
      controller.connectionTarget ≤ count
  exhausted : found = false → (DialRecord.ofHistory trace).started = peers ∧
    (DialRecord.ofHistory trace).outstanding = [] ∧
    ((DialRecord.ofHistory trace).completed.map Prod.fst).Perm (List.range peers.length)

theorem Dialing.invocation (h : Dialing controller peers history dials) {target : AdapterQuery}
    (hConnect : ∀ peer timeout, target = .connect peer timeout → timeout = controller.policy.perDialTimeout ∧
      ∃ rest, dials.waiting = peer :: rest)
    (hCheck : target = .connectedPeers → ∃ before waiting inFlight index outcome,
      history = before ++ [⟨.pollDials waiting inFlight, .finished index outcome⟩]) :
    DialInvocation controller peers history target where
  outstanding := by
    have hRoom := h.room
    rw [h.inFlight]
    omega
  started := ⟨_, by rw [← h.order, List.append_assoc]⟩
  accounted := h.accounted
  below := h.below
  connect := by
    intro peer timeout hTarget
    obtain ⟨hTimeout, rest, hWaiting⟩ := hConnect peer timeout hTarget
    have hRoom := h.room
    rw [hWaiting, List.length_cons] at hRoom
    refine ⟨hTimeout, by rw [h.inFlight]; omega, rest ++ dials.pending, ?_⟩
    rw [← h.order, hWaiting]
    simp only [List.append_assoc, List.cons_append, List.nil_append]
  check := hCheck

theorem Dialing.exhausted (h : Dialing controller peers history dials) (hSize : dials.size = 0) :
    DialReturn controller peers history false where
  found_iff := by
    simp only [Bool.false_eq_true, false_iff, not_exists, not_and, not_le]
    exact h.below
  found_last := by rintro ⟨⟩
  exhausted _ := by
    have hPending : dials.pending = [] := List.eq_nil_of_length_eq_zero (by rw [Dials.size] at hSize; omega)
    have hWaiting : dials.waiting = [] := List.eq_nil_of_length_eq_zero (by rw [Dials.size] at hSize; omega)
    have hInFlight : dials.inFlight.length = 0 := by rw [Dials.size] at hSize; omega
    have hStarted : (DialRecord.ofHistory history).started = peers := by
      rw [← h.order, hPending, hWaiting, List.append_nil, List.append_nil]
    have hOutstanding := List.eq_nil_of_length_eq_zero (h.inFlight.trans hInFlight)
    have hAccounted := h.accounted
    rw [DialRecord.Accounted, hOutstanding, hStarted, List.nil_append] at hAccounted
    exact ⟨hStarted, hOutstanding, hAccounted⟩

theorem guarantees_dialLoop_bounded (h : Dialing controller peers history dials) :
    Guarantees (DialInvocation controller peers) (DialReturn controller peers) history (controller.dialLoop dials) := by
  fun_induction BootstrapController.dialLoop controller dials generalizing history
  case case1 dials filled hEmpty =>
    exact .pure (h.exhausted (dials.size_eq_zero (Nat.lt_of_lt_of_le Nat.zero_lt_one (le_max_right ..)) hEmpty.1 hEmpty.2))
  case case2 dials filled hSome ihBegin ihFinish =>
    have hFilled : Dialing controller peers history filled := h.refill
    refine .ask_bind (hFilled.invocation (by rintro _ _ ⟨⟩) (by rintro ⟨⟩)) fun progress => ?_
    cases progress with
    | started hWaiting =>
      have hStarted := hFilled.start filled.inFlight.length hWaiting
      refine .ask_bind (hStarted.invocation ?_ (by rintro ⟨⟩)) fun answer => ?_
      · rintro peer timeout ⟨⟩
        exact ⟨rfl, filled.waiting.tail, by rw [List.getElem_zero, List.cons_head_tail]⟩
      · exact ihBegin hWaiting (hStarted.connect hWaiting _ answer)
    | finished index outcome =>
      have hFinished := hFilled.finish filled.waiting.length index outcome
      refine .ask_bind (hFinished.invocation (by rintro _ _ ⟨⟩) fun _ => ⟨_, _, _, index, outcome, rfl⟩) fun count => ?_
      split
      · rename_i hCount
        refine .pure ⟨⟨fun _ => ⟨count, ?_, hCount⟩, fun _ => rfl⟩, fun _ => ⟨_, _, _, index, outcome, count, rfl, hCount⟩,
          by rintro ⟨⟩⟩
        rw [checks_concat]
        exact List.mem_append_right _ (List.mem_singleton_self _)
      · rename_i hCount
        exact ihFinish index (hFinished.check (not_le.mp hCount))

/-- Bounded dialing: for every list of candidates, every limit and every order in which the dials complete. -/
theorem dialing_bounded (controller : BootstrapController) (peers : List PeerCandidate) (transitions : List BootstrapState)
    (source : BootstrapState) :
    (∀ history target, (controller.dialCandidates peers transitions source).Reaches history target →
      DialInvocation controller peers history target) ∧
    (∀ trace result, (controller.dialCandidates peers transitions source).Runs trace result →
      DialReturn controller peers trace result.1) := by
  have hStart := Dialing.new controller peers
  have hStage : Guarantees (DialInvocation controller peers)
      (fun trace result => DialReturn controller peers trace result.1)
      [] (controller.dialCandidates peers transitions source) := by
    rw [BootstrapController.dialCandidates]
    split
    · rename_i hPeers
      refine .pure (hStart.exhausted ?_)
      rw [hPeers]
      rfl
    · apply (guarantees_dialLoop_bounded hStart).bind
      intro trace found hFound
      cases found with
      | true => exact .pure hFound
      | false => exact .pure hFound
  exact ⟨fun history target => hStage.reaches, fun trace result => hStage.runs⟩

/-- Two dials at a time: the second peer times out, the third takes its place and is dropped when the first is found
connected. -/
def crowdedRun : List (Event Adapters) :=
  [⟨.pollDials 2 0, .started Nat.zero_lt_two⟩, ⟨.connect (testPeer 1) ⟨8, 0⟩, ()⟩,
    ⟨.pollDials 1 1, .started Nat.zero_lt_one⟩, ⟨.connect (testPeer 2) ⟨8, 0⟩, ()⟩,
    ⟨.pollDials 0 2, .finished ⟨1, Nat.one_lt_two⟩ .timedOut⟩, ⟨.connectedPeers, (0 : Nat)⟩,
    ⟨.pollDials 1 1, .started Nat.zero_lt_one⟩, ⟨.connect (testPeer 3) ⟨8, 0⟩, ()⟩,
    ⟨.pollDials 0 2, .finished ⟨0, Nat.zero_lt_two⟩ (.handshake true)⟩, ⟨.connectedPeers, (1 : Nat)⟩]

theorem dialing_bounded_crowded :
    DialReturn seedController [testPeer 1, testPeer 2, testPeer 3] crowdedRun true :=
  (dialing_bounded seedController [testPeer 1, testPeer 2, testPeer 3] [] .cacheDiscovery).2 crowdedRun
    (true, [.dialing, .cacheDiscovery, .connected]) (Prog.runs_of_replay (by decide +kernel))

end Resurrect.Bootstrap
