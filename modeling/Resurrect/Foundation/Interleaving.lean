import Resurrect.Foundation.Lockstep
import Mathlib.Logic.Function.Basic

/-! # Many calls of one program on a shared state

Any number of calls run the same program, each answered from a state they share.
A served call gets an answer the state really gives, a faulted call a failure, and
a crashed call gets no further answer; the calls take turns in any order. A call
that returned is never touched again.
-/

namespace Resurrect.Interaction

variable {I : Interface} {σ α : Type}

namespace Prog

theorem Runs.not_reaches {p : Prog I α} {history : List (Event I)} {result : α} {target : I.Query}
    (h : p.Runs history result) : ¬ p.Reaches history target := by
  induction p generalizing history with
  | done value => exact reaches_done
  | call query next ih =>
    obtain ⟨answer, rest, rfl, hRest⟩ := h
    rintro (⟨hNil, -⟩ | ⟨other, after, hTrace, hReaches⟩)
    · cases hNil
    · cases hTrace
      exact ih answer hRest hReaches

/-- `p` got the answers of `history` and waits for another, or has returned. -/
def Stands (p : Prog I α) (history : List (Event I)) : Prop :=
  (∃ target, p.Reaches history target) ∨ ∃ result, p.Runs history result

theorem stands_nil (p : Prog I α) : p.Stands [] := by
  cases p with
  | done value => exact .inr ⟨value, rfl, rfl⟩
  | call query next => exact .inl ⟨query, .inl ⟨rfl, rfl⟩⟩

theorem Reaches.stands {p : Prog I α} {history : List (Event I)} {event : Event I}
    (h : p.Reaches history event.query) : p.Stands (history ++ [event]) := by
  induction p generalizing history with
  | done value => exact h.elim
  | call query next ih =>
    obtain ⟨rfl, hQuery⟩ | ⟨answer, rest, rfl, hRest⟩ := h
    · obtain ⟨asked, answer⟩ := event
      obtain rfl : asked = query := hQuery
      obtain ⟨target, hTarget⟩ | ⟨result, hResult⟩ := stands_nil (next answer)
      · exact .inl ⟨target, .inr ⟨answer, [], rfl, hTarget⟩⟩
      · exact .inr ⟨result, answer, [], rfl, hResult⟩
    · obtain ⟨target, hTarget⟩ | ⟨result, hResult⟩ := ih answer hRest
      · exact .inl ⟨target, .inr ⟨answer, _, rfl, hTarget⟩⟩
      · exact .inr ⟨result, answer, _, rfl, hResult⟩

theorem Stands.before {p : Prog I α} {history : List (Event I)} {event : Event I} (h : p.Stands (history ++ [event])) :
    p.Reaches history event.query := by
  obtain ⟨target, hReaches⟩ | ⟨result, hRuns⟩ := h
  · exact hReaches.before
  · exact hRuns.reaches

end Prog

/-- One call: the answers it got, whether none of them was a failure, and whether it was stopped. -/
structure Thread (I : Interface) where
  history : List (Event I)
  worked : Bool
  crashed : Bool

/-- A call that asked nothing yet. -/
def Thread.fresh : Thread I := ⟨[], true, false⟩

structure Pool (I : Interface) (σ : Type) where
  shared : σ
  thread : Nat → Thread I

namespace Pool

def fresh (shared : σ) : Pool I σ := ⟨shared, fun _ => .fresh⟩

/-- The pool after call `index` got an answer that left the shared state as `after`. -/
def answered (self : Pool I σ) (index : Nat) (event : Event I) (works : Bool) (after : σ) : Pool I σ where
  shared := after
  thread := Function.update self.thread index
    { self.thread index with
      history := (self.thread index).history ++ [event]
      worked := (self.thread index).worked && works }

def crash (self : Pool I σ) (index : Nat) : Pool I σ :=
  { self with thread := Function.update self.thread index { self.thread index with crashed := true } }

variable {self : Pool I σ} {index : Nat} {event : Event I} {works : Bool} {after : σ}

theorem answered_self : (self.answered index event works after).thread index =
    ⟨(self.thread index).history ++ [event], (self.thread index).worked && works, (self.thread index).crashed⟩ :=
  Function.update_self ..

theorem answered_of_ne {other : Nat} (h : other ≠ index) :
    (self.answered index event works after).thread other = self.thread other := Function.update_of_ne h ..

theorem history_answered (other : Nat) : ((self.answered index event works after).thread other).history =
    if other = index then (self.thread index).history ++ [event] else (self.thread other).history := by
  split
  · rename_i hEq
    rw [hEq, answered_self]
  · rename_i hNe
    rw [answered_of_ne hNe]

theorem crash_self : (self.crash index).thread index =
    ⟨(self.thread index).history, (self.thread index).worked, true⟩ := Function.update_self ..

theorem crash_of_ne {other : Nat} (h : other ≠ index) : (self.crash index).thread other = self.thread other :=
  Function.update_of_ne h ..

theorem history_crash (other : Nat) : ((self.crash index).thread other).history = (self.thread other).history := by
  by_cases h : other = index
  · rw [h, crash_self]
  · rw [crash_of_ne h]

theorem worked_crash (other : Nat) : ((self.crash index).thread other).worked = (self.thread other).worked := by
  by_cases h : other = index
  · rw [h, crash_self]
  · rw [crash_of_ne h]

end Pool

inductive Move (I : Interface) where
  | serve (index : Nat) (event : Event I)
  | fault (index : Nat) (event : Event I)
  | crash (index : Nat)

/-- A program, what the shared state answers where it works, and what a failure is like. -/
structure System (I : Interface) (σ α : Type) where
  program : Prog I α
  works : σ → Event I → σ → Prop
  fails : σ → Event I → σ → Prop

namespace System

variable (self : System I σ α)

inductive Step : Pool I σ → Move I → Pool I σ → Prop
  | serve {pool : Pool I σ} {index : Nat} {event : Event I} {after : σ} (hAlive : (pool.thread index).crashed = false)
      (hReaches : self.program.Reaches (pool.thread index).history event.query)
      (hWorks : self.works pool.shared event after) :
      Step pool (.serve index event) (pool.answered index event true after)
  | fault {pool : Pool I σ} {index : Nat} {event : Event I} {after : σ} (hAlive : (pool.thread index).crashed = false)
      (hReaches : self.program.Reaches (pool.thread index).history event.query)
      (hFails : self.fails pool.shared event after) :
      Step pool (.fault index event) (pool.answered index event false after)
  | crash {pool : Pool I σ} {index : Nat} : Step pool (.crash index) (pool.crash index)

/-- The moves made from `start`, each with the pool it was made in, and the pool they lead to. -/
inductive Run (start : Pool I σ) : List (Pool I σ × Move I) → Pool I σ → Prop
  | nil : Run start [] start
  | concat {steps : List (Pool I σ × Move I)} {pool next : Pool I σ} {move : Move I} (hRun : Run start steps pool)
      (hStep : self.Step pool move next) : Run start (steps ++ [(pool, move)]) next

variable {self} {start final : Pool I σ} {steps : List (Pool I σ × Move I)}

/-- What holds at first, and is kept by every step, holds after every run. -/
theorem Run.invariant {inv : Pool I σ → Prop} (hRun : self.Run start steps final) (hStart : inv start)
    (hStep : ∀ pool move next, inv pool → self.Step pool move next → inv next) : inv final := by
  induction hRun with
  | nil => exact hStart
  | concat hRun hMove ih => exact hStep _ _ _ ih hMove

/-- Every step of a run is a step from a pool that a run leads to. -/
theorem Run.step_of_mem (hRun : self.Run start steps final) {pool : Pool I σ} {move : Move I}
    (hMem : (pool, move) ∈ steps) : ∃ earlier next, self.Run start earlier pool ∧ self.Step pool move next := by
  induction hRun with
  | nil => cases hMem
  | concat hRun hMove ih =>
    obtain hEarlier | hLast := List.mem_append.mp hMem
    · exact ih hEarlier
    · cases List.mem_singleton.mp hLast
      exact ⟨_, _, hRun, hMove⟩

/-- What one step does to call `index`: it leaves it as it is, or the call is served or faulted. -/
theorem Step.thread_cases {pool next : Pool I σ} {move : Move I} (h : self.Step pool move next) (index : Nat) :
    ((next.thread index).history = (pool.thread index).history ∧
      (next.thread index).worked = (pool.thread index).worked) ∨
    ∃ event, self.program.Reaches (pool.thread index).history event.query ∧
      (next.thread index).history = (pool.thread index).history ++ [event] ∧
      ((move = .serve index event ∧ self.works pool.shared event next.shared ∧
          (next.thread index).worked = (pool.thread index).worked) ∨
        (move = .fault index event ∧ self.fails pool.shared event next.shared ∧ (next.thread index).worked = false)) := by
  cases h with
  | @serve other event after hAlive hReaches hWorks =>
    by_cases hIndex : index = other
    · subst hIndex
      rw [Pool.answered_self]
      exact .inr ⟨event, hReaches, rfl, .inl ⟨rfl, hWorks, Bool.and_true _⟩⟩
    · rw [Pool.answered_of_ne hIndex]
      exact .inl ⟨rfl, rfl⟩
  | @fault other event after hAlive hReaches hFails =>
    by_cases hIndex : index = other
    · subst hIndex
      rw [Pool.answered_self]
      exact .inr ⟨event, hReaches, rfl, .inr ⟨rfl, hFails, Bool.and_false _⟩⟩
    · rw [Pool.answered_of_ne hIndex]
      exact .inl ⟨rfl, rfl⟩
  | crash => exact .inl ⟨Pool.history_crash index, Pool.worked_crash index⟩

theorem Step.finished {pool next : Pool I σ} {move : Move I} (h : self.Step pool move next) {index : Nat} {result : α}
    (hRuns : self.program.Runs (pool.thread index).history result) :
    (next.thread index).history = (pool.thread index).history ∧
      (next.thread index).worked = (pool.thread index).worked := by
  obtain hSame | ⟨event, hReaches, -⟩ := h.thread_cases index
  · exact hSame
  · exact absurd hReaches hRuns.not_reaches

/-- A call that a served answer made return is still as that answer left it when the run ends. -/
theorem Run.finished (hRun : self.Run start steps final) {pool : Pool I σ} {index : Nat} {event : Event I} {result : α}
    (hMem : (pool, Move.serve index event) ∈ steps)
    (hRuns : self.program.Runs ((pool.thread index).history ++ [event]) result) :
    (final.thread index).history = (pool.thread index).history ++ [event] ∧
      (final.thread index).worked = (pool.thread index).worked := by
  induction hRun with
  | nil => cases hMem
  | concat hRun hMove ih =>
    obtain hEarlier | hLast := List.mem_append.mp hMem
    · obtain ⟨hHistory, hWorked⟩ := ih hEarlier
      rw [← hHistory] at hRuns
      obtain ⟨hSame, hStill⟩ := hMove.finished hRuns
      exact ⟨hSame.trans hHistory, hStill.trans hWorked⟩
    · cases List.mem_singleton.mp hLast
      cases hMove
      rw [Pool.answered_self]
      exact ⟨rfl, Bool.and_true _⟩

/-- The state answers `events` one after the other, and is left as `after`. -/
inductive Serves (works : σ → Event I → σ → Prop) (state : σ) : List (Event I) → σ → Prop
  | nil : Serves works state [] state
  | concat {events : List (Event I)} {event : Event I} {middle after : σ} (h : Serves works state events middle)
      (hWorks : works middle event after) : Serves works state (events ++ [event]) after

/-- One call, served alone. -/
theorem run_alone {state after : σ} {events : List (Event I)} (hServes : Serves self.works state events after)
    (hStands : self.program.Stands events) : ∃ steps final, self.Run (.fresh state) steps final ∧
      steps.map Prod.snd = events.map (.serve 0) ∧ final.shared = after ∧ final.thread 0 = ⟨events, true, false⟩ ∧
      ∀ index, index ≠ 0 → final.thread index = .fresh := by
  induction hServes with
  | nil => exact ⟨[], _, .nil, rfl, rfl, rfl, fun _ _ => rfl⟩
  | @concat events event middle after h hWorks ih =>
    have hReaches := hStands.before
    obtain ⟨steps, pool, hRun, hMoves, hShared, hThread, hOthers⟩ := ih (.inl ⟨_, hReaches⟩)
    have hStep : self.Step pool (.serve 0 event) (pool.answered 0 event true after) :=
      .serve (by rw [hThread]) (by rwa [hThread]) (by rwa [hShared])
    refine ⟨_, _, hRun.concat hStep, ?_, rfl, ?_, fun index hIndex => ?_⟩
    · rw [List.map_append, List.map_append, hMoves]
      rfl
    · rw [Pool.answered_self, hThread]
      rfl
    · rw [Pool.answered_of_ne hIndex]
      exact hOthers index hIndex

end System

/-- Where the shared state works on a query, the environment answers as it does. -/
def Environment.Working (works : σ → Event I → σ → Prop) (env : Environment I σ) : Prop :=
  ∀ state event after, works state event after →
    works state ⟨event.query, env.answer state event.query⟩ (env.next state event.query)

end Resurrect.Interaction
