import Resurrect.Foundation.Interleaving

/-! # Triples for programs that may be stopped

A world answers a program from a state that each answer moves on. A triple says
what holds of the state where the program returns, and wherever it is stopped:
before any query, after the last answer, or at its end. The answers of a fallible
world are among those the triple is about.
-/

namespace Resurrect.Interaction

variable {I : Interface} {σ α β : Type} {answers : σ → Event I → σ → Prop}

/-- The answers of `trace`, given one after another, lead from one state to the other. -/
inductive Answered (answers : σ → Event I → σ → Prop) : σ → List (Event I) → σ → Prop
  | nil {state : σ} : Answered answers state [] state
  | cons {before middle after : σ} {event : Event I} {rest : List (Event I)} (hEvent : answers before event middle)
      (hRest : Answered answers middle rest after) : Answered answers before (event :: rest) after

theorem answered_append {before after : σ} {first second : List (Event I)} :
    Answered answers before (first ++ second) after ↔
      ∃ middle, Answered answers before first middle ∧ Answered answers middle second after := by
  induction first generalizing before with
  | nil =>
    constructor
    · intro h
      exact ⟨before, .nil, h⟩
    · rintro ⟨_, ⟨⟩, h⟩
      exact h
  | cons event first ih =>
    constructor
    · rintro (_ | ⟨hEvent, hRest⟩)
      obtain ⟨middle, hFirst, hSecond⟩ := ih.mp hRest
      exact ⟨middle, .cons hEvent hFirst, hSecond⟩
    · rintro ⟨middle, _ | ⟨hEvent, hFirst⟩, hSecond⟩
      exact .cons hEvent (ih.mpr ⟨middle, hFirst, hSecond⟩)

theorem Prog.stands_bind {p : Prog I α} {f : α → Prog I β} {trace : List (Event I)} (h : (p >>= f).Stands trace) :
    p.Stands trace ∨ ∃ first value second, trace = first ++ second ∧ p.Runs first value ∧ (f value).Stands second := by
  obtain ⟨target, hReaches⟩ | ⟨result, hRuns⟩ := h
  · obtain hFirst | ⟨first, value, second, rfl, hFirst, hSecond⟩ := Prog.reaches_bind.mp hReaches
    · exact .inl (.inl ⟨target, hFirst⟩)
    · exact .inr ⟨first, value, second, rfl, hFirst, .inl ⟨target, hSecond⟩⟩
  · obtain ⟨first, value, second, rfl, hFirst, hSecond⟩ := Prog.runs_bind.mp hRuns
    exact .inr ⟨first, value, second, rfl, hFirst, .inr ⟨result, hSecond⟩⟩

/-- Started where `before` holds, `p` leaves `returned` where it returns and `stopped` wherever it is stopped. -/
structure Triple (answers : σ → Event I → σ → Prop) (before : σ → Prop) (p : Prog I α) (returned : α → σ → Prop)
    (stopped : σ → Prop) : Prop where
  runs : ∀ {state after trace result}, before state → p.Runs trace result → Answered answers state trace after →
    returned result after
  stops : ∀ {state after trace}, before state → p.Stands trace → Answered answers state trace after → stopped after

namespace Triple

variable {before stopped : σ → Prop} {returned : β → σ → Prop} {middle : α → σ → Prop}

theorem pure {value : β} (hReturned : ∀ state, before state → returned value state)
    (hStopped : ∀ state, before state → stopped state) :
    Triple answers before (Pure.pure value) returned stopped where
  runs := by
    rintro state after trace result hBefore ⟨rfl, rfl⟩ ⟨⟩
    exact hReturned state hBefore
  stops := by
    rintro state after trace hBefore (⟨target, hReaches⟩ | ⟨result, rfl, rfl⟩) hAnswered
    · exact absurd hReaches Prog.reaches_pure
    · cases hAnswered
      exact hStopped state hBefore

theorem ask {query : I.Query} {returned : I.Answer query → σ → Prop} (hStopped : ∀ state, before state → stopped state)
    (hReturned : ∀ state answer after, before state → answers state ⟨query, answer⟩ after →
      returned answer after ∧ stopped after) :
    Triple answers before (Prog.ask query) returned stopped where
  runs := by
    intro state after trace result hBefore hRuns hAnswered
    obtain rfl := Prog.runs_ask.mp hRuns
    obtain _ | ⟨hEvent, ⟨⟩⟩ := hAnswered
    exact (hReturned state result after hBefore hEvent).1
  stops := by
    rintro state after trace hBefore (⟨target, hReaches⟩ | ⟨result, hRuns⟩) hAnswered
    · obtain ⟨rfl, rfl⟩ := Prog.reaches_ask.mp hReaches
      cases hAnswered
      exact hStopped state hBefore
    · obtain rfl := Prog.runs_ask.mp hRuns
      obtain _ | ⟨hEvent, ⟨⟩⟩ := hAnswered
      exact (hReturned state result after hBefore hEvent).2

theorem bind {p : Prog I α} {f : α → Prog I β} (hFirst : Triple answers before p middle stopped)
    (hRest : ∀ value, Triple answers (middle value) (f value) returned stopped) :
    Triple answers before (p >>= f) returned stopped where
  runs := by
    intro state after trace result hBefore hRuns hAnswered
    obtain ⟨first, value, second, rfl, hP, hF⟩ := Prog.runs_bind.mp hRuns
    obtain ⟨between, hAnsweredP, hAnsweredF⟩ := answered_append.mp hAnswered
    exact (hRest value).runs (hFirst.runs hBefore hP hAnsweredP) hF hAnsweredF
  stops := by
    intro state after trace hBefore hStands hAnswered
    obtain hP | ⟨first, value, second, rfl, hP, hF⟩ := Prog.stands_bind hStands
    · exact hFirst.stops hBefore hP hAnswered
    · obtain ⟨between, hAnsweredP, hAnsweredF⟩ := answered_append.mp hAnswered
      exact (hRest value).stops (hFirst.runs hBefore hP hAnsweredP) hF hAnsweredF

theorem mono {p : Prog I β} {stronger wider : σ → Prop} {weaker : β → σ → Prop}
    (h : Triple answers before p returned stopped) (hBefore : ∀ state, stronger state → before state)
    (hReturned : ∀ value state, returned value state → weaker value state)
    (hStopped : ∀ state, stopped state → wider state) : Triple answers stronger p weaker wider where
  runs hStronger hRuns hAnswered := hReturned _ _ (h.runs (hBefore _ hStronger) hRuns hAnswered)
  stops hStronger hStands hAnswered := hStopped _ (h.stops (hBefore _ hStronger) hStands hAnswered)

/-- A fact that does not depend on the state. -/
theorem assume {p : Prog I β} {fact : Prop} (h : fact → Triple answers before p returned stopped) :
    Triple answers (fun state => fact ∧ before state) p returned stopped where
  runs hBefore := (h hBefore.1).runs hBefore.2
  stops hBefore := (h hBefore.1).stops hBefore.2

/-- What a fallible program leaves where it returns, and where it fails. -/
def Leaves {ε : Type} (kept : α → σ → Prop) (failed : ε → σ → Prop) : Except ε α → σ → Prop
  | .ok value => kept value
  | .error error => failed error

section Fallible

variable {ε δ : Type} {kept : β → σ → Prop} {failed : ε → σ → Prop}

theorem run_bind {p : ExceptT ε (Prog I) α} {f : α → ExceptT ε (Prog I) β}
    (hFirst : Triple answers before p.run (Leaves middle failed) stopped)
    (hFailed : ∀ error state, failed error state → stopped state)
    (hRest : ∀ value, Triple answers (middle value) (f value).run (Leaves kept failed) stopped) :
    Triple answers before (p >>= f).run (Leaves kept failed) stopped := by
  rw [ExceptT.run_bind]
  refine hFirst.bind fun result => ?_
  cases result with
  | ok value => exact hRest value
  | error error => exact .pure (fun _ => id) (hFailed error)

theorem attempt {convert : δ → ε} {p : Prog I (Except δ α)}
    (h : Triple answers before p (Leaves middle fun error => failed (convert error)) stopped)
    (hKept : ∀ value state, middle value state → stopped state)
    (hFailed : ∀ error state, failed error state → stopped state) :
    Triple answers before (Interaction.attempt convert p).run (Leaves middle failed) stopped := by
  refine h.bind fun result => ?_
  cases result with
  | ok value => exact .pure (fun _ => id) (hKept value)
  | error error => exact .pure (fun _ => id) (hFailed _)

end Fallible

end Triple

section Lift

variable {J : Interface} (e : Embedding I J)

theorem Embedding.stands_lift {p : Prog I α} {trace : List (Event J)} (h : (e.lift p).Stands trace) :
    ∃ inner, trace = inner.map e.event ∧ p.Stands inner := by
  obtain ⟨target, hReaches⟩ | ⟨result, hRuns⟩ := h
  · obtain ⟨inner, query, rfl, -, hInner⟩ := e.reaches_lift.mp hReaches
    exact ⟨inner, rfl, .inl ⟨query, hInner⟩⟩
  · obtain ⟨inner, rfl, hInner⟩ := e.runs_lift.mp hRuns
    exact ⟨inner, rfl, .inr ⟨result, hInner⟩⟩

theorem Answered.of_map {world : σ → Event J → σ → Prop} {before after : σ} {inner : List (Event I)}
    (h : Answered world before (inner.map e.event) after) :
    Answered (fun state event => world state (e.event event)) before inner after := by
  induction inner generalizing before with
  | nil =>
    cases h
    exact .nil
  | cons event inner ih =>
    obtain _ | ⟨hEvent, hRest⟩ := h
    exact .cons hEvent (ih hRest)

/-- A program of a smaller interface, in a world that answers a larger one. -/
theorem Triple.lift {world : σ → Event J → σ → Prop} {p : Prog I α} {before stopped : σ → Prop}
    {returned : α → σ → Prop}
    (h : Triple (fun state event => world state (e.event event)) before p returned stopped) :
    Triple world before (e.lift p) returned stopped where
  runs hBefore hRuns hAnswered := by
    obtain ⟨inner, rfl, hInner⟩ := e.runs_lift.mp hRuns
    exact h.runs hBefore hInner hAnswered.of_map
  stops hBefore hStands hAnswered := by
    obtain ⟨inner, rfl, hInner⟩ := e.stands_lift hStands
    exact h.stops hBefore hInner hAnswered.of_map

end Lift

end Resurrect.Interaction
