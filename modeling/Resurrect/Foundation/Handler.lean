import Resurrect.Foundation.Interaction

/-! # Programs that answer queries

A handler answers each query of one interface by a program of another, a server by
one that also works on a state. Handling a program replaces its queries by those
programs. A run of the result is a run of the program, each answer of which is what
the run of its own part came to.
-/

namespace Resurrect.Interaction

/-- Each query of `I`, answered by a program of `J`. -/
abbrev Handler (I J : Interface) := (query : I.Query) → Prog J (I.Answer query)

namespace Handler

variable {I J : Interface} {α β : Type} (handler : Handler I J)

def handle : Prog I α → Prog J α
  | .done value => .done value
  | .call query next => handler query >>= fun answer => handle (next answer)

theorem handle_call (query : I.Query) (next : I.Answer query → Prog I α) :
    handler.handle (.call query next) = handler query >>= fun answer => handler.handle (next answer) := rfl

/-- The queries of `outer` were answered by the runs that make up `inner`. -/
inductive Answers : List (Event I) → List (Event J) → Prop
  | nil : Answers [] []
  | cons {event : Event I} {outer : List (Event I)} {part inner : List (Event J)}
      (hPart : (handler event.query).Runs part event.answer) (hRest : Answers outer inner) :
      Answers (event :: outer) (part ++ inner)

variable {handler} {p : Prog I α}

theorem runs_handle {trace : List (Event J)} {result : α} :
    (handler.handle p).Runs trace result ↔ ∃ outer, handler.Answers outer trace ∧ p.Runs outer result := by
  induction p generalizing trace with
  | done value =>
    constructor
    · rintro ⟨rfl, rfl⟩
      exact ⟨[], .nil, rfl, rfl⟩
    · rintro ⟨outer, hAnswers, rfl, rfl⟩
      cases hAnswers
      exact ⟨rfl, rfl⟩
  | call query next ih =>
    rw [handle_call, Prog.runs_bind]
    constructor
    · rintro ⟨part, answer, rest, rfl, hPart, hRest⟩
      obtain ⟨outer, hAnswers, hOuter⟩ := (ih answer).mp hRest
      exact ⟨⟨query, answer⟩ :: outer, .cons hPart hAnswers, answer, outer, rfl, hOuter⟩
    · rintro ⟨_, hAnswers, answer, outer, rfl, hOuter⟩
      obtain _ | ⟨hPart, hRest⟩ := hAnswers
      exact ⟨_, answer, _, rfl, hPart, (ih answer).mpr ⟨outer, hRest, hOuter⟩⟩

/-- An answered query was answered by a part of the run. -/
theorem Answers.exists_part {outer : List (Event I)} {inner : List (Event J)} (h : handler.Answers outer inner)
    {event : Event I} (hMem : event ∈ outer) : ∃ part, part ⊆ inner ∧ (handler event.query).Runs part event.answer := by
  induction h with
  | nil => cases hMem
  | cons hPart hRest ih =>
    obtain rfl | hMem := List.mem_cons.mp hMem
    · exact ⟨_, List.subset_append_left _ _, hPart⟩
    · obtain ⟨part, hSubset, hRuns⟩ := ih hMem
      exact ⟨part, List.Subset.trans hSubset (List.subset_append_right _ _), hRuns⟩

end Handler

/-- Each query of `I`, answered by a program of `J` on a state. -/
abbrev Server (I J : Interface) (σ : Type) := (query : I.Query) → σ → Prog J (I.Answer query × σ)

namespace Server

variable {I J : Interface} {σ α : Type} (server : Server I J σ)

def serve : Prog I α → σ → Prog J (α × σ)
  | .done value, state => .done (value, state)
  | .call query next, state => server query state >>= fun served => serve (next served.1) served.2

theorem serve_call (query : I.Query) (next : I.Answer query → Prog I α) (state : σ) :
    server.serve (.call query next) state = server query state >>= fun served =>
      server.serve (next served.1) served.2 := rfl

/-- From the first state to the last, the queries of `outer` were answered by the runs that make up `inner`. -/
inductive Served : σ → List (Event I) → List (Event J) → σ → Prop
  | nil {state : σ} : Served state [] [] state
  | cons {state next last : σ} {event : Event I} {outer : List (Event I)} {part inner : List (Event J)}
      (hPart : (server event.query state).Runs part (event.answer, next)) (hRest : Served next outer inner last) :
      Served state (event :: outer) (part ++ inner) last

variable {server} {p : Prog I α} {state last : σ}

theorem runs_serve {trace : List (Event J)} {result : α} : (server.serve p state).Runs trace (result, last) ↔
    ∃ outer, server.Served state outer trace last ∧ p.Runs outer result := by
  induction p generalizing trace state with
  | done value =>
    constructor
    · rintro ⟨rfl, hResult⟩
      obtain ⟨rfl, rfl⟩ := Prod.mk.inj hResult
      exact ⟨[], .nil, rfl, rfl⟩
    · rintro ⟨outer, hServed, rfl, rfl⟩
      cases hServed
      exact ⟨rfl, rfl⟩
  | call query next ih =>
    rw [serve_call, Prog.runs_bind]
    constructor
    · rintro ⟨part, ⟨answer, middle⟩, rest, rfl, hPart, hRest⟩
      obtain ⟨outer, hServed, hOuter⟩ := (ih answer).mp hRest
      exact ⟨⟨query, answer⟩ :: outer, .cons hPart hServed, answer, outer, rfl, hOuter⟩
    · rintro ⟨_, hServed, answer, outer, rfl, hOuter⟩
      obtain _ | ⟨hPart, hRest⟩ := hServed
      exact ⟨_, (answer, _), _, rfl, hPart, (ih answer).mpr ⟨outer, hRest, hOuter⟩⟩

theorem reaches_serve {history : List (Event J)} {target : J.Query}
    (h : (server.serve p state).Reaches history target) :
    ∃ outer query before part middle, history = before ++ part ∧ server.Served state outer before middle ∧
      p.Reaches outer query ∧ (server query middle).Reaches part target := by
  induction p generalizing history state with
  | done value => exact h.elim
  | call query next ih =>
    obtain hPart | ⟨part, ⟨answer, middle⟩, rest, rfl, hPart, hRest⟩ := Prog.reaches_bind.mp h
    · exact ⟨[], query, [], history, state, rfl, .nil, .inl ⟨rfl, rfl⟩, hPart⟩
    · obtain ⟨outer, asked, before, current, reached, rfl, hServed, hOuter, hCurrent⟩ := ih answer hRest
      exact ⟨⟨query, answer⟩ :: outer, asked, part ++ before, current, reached, (List.append_assoc ..).symm,
        .cons hPart hServed, .inr ⟨answer, outer, rfl, hOuter⟩, hCurrent⟩

theorem Served.exists_split {first second : List (Event I)} {inner : List (Event J)}
    (h : server.Served state (first ++ second) inner last) : ∃ part rest middle, inner = part ++ rest ∧
      server.Served state first part middle ∧ server.Served middle second rest last := by
  induction first generalizing state inner with
  | nil => exact ⟨[], inner, state, rfl, .nil, h⟩
  | cons event first ih =>
    obtain _ | ⟨hPart, hRest⟩ := h
    obtain ⟨part, rest, middle, rfl, hFirst, hSecond⟩ := ih hRest
    exact ⟨_, rest, middle, (List.append_assoc ..).symm, .cons hPart hFirst, hSecond⟩

/-- An answered query was answered by a part of the run, from some state on. -/
theorem Served.exists_part {outer : List (Event I)} {inner : List (Event J)} (h : server.Served state outer inner last)
    {event : Event I} (hMem : event ∈ outer) : ∃ part before after, part ⊆ inner ∧
      (server event.query before).Runs part (event.answer, after) := by
  obtain ⟨first, second, rfl⟩ := List.append_of_mem hMem
  obtain ⟨part, rest, middle, rfl, -, hSecond⟩ := h.exists_split
  obtain _ | ⟨hPart, hRest⟩ := hSecond
  exact ⟨_, _, _, List.Subset.trans (List.subset_append_left _ _) (List.subset_append_right _ _), hPart⟩

/-- What the parts have nothing of, the run has nothing of. -/
theorem Served.filterMap_eq_nil {γ : Type} {f : Event J → Option γ} {outer : List (Event I)} {inner : List (Event J)}
    (h : server.Served state outer inner last)
    (hNone : ∀ event ∈ outer, ∀ {before after part}, (server event.query before).Runs part (event.answer, after) →
      part.filterMap f = []) : inner.filterMap f = [] := by
  induction h with
  | nil => rfl
  | cons hPart hRest ih =>
    rw [List.filterMap_append, hNone _ (List.mem_cons_self ..) hPart, List.nil_append]
    exact ih fun event hMem => hNone event (List.mem_cons_of_mem _ hMem)

/-- What every part keeps of the state, the run keeps. -/
theorem Served.kept {τ : Type} {view : σ → τ} {outer : List (Event I)} {inner : List (Event J)}
    (h : server.Served state outer inner last)
    (hKept : ∀ event ∈ outer, ∀ {before after part}, (server event.query before).Runs part (event.answer, after) →
      view after = view before) : view last = view state := by
  induction h with
  | nil => rfl
  | cons hPart hRest ih =>
    rw [ih fun event hMem => hKept event (List.mem_cons_of_mem _ hMem)]
    exact hKept _ (List.mem_cons_self ..) hPart

end Server

section Fallible

variable {I : Interface} {α β δ ε : Type} {allowed : I.Query → Prop} {convert : δ → ε}

theorem asks_attempt {p : Prog I (Except δ α)} (h : p.Asks allowed) : (attempt convert p).run.Asks allowed := by
  intro history target hReaches
  exact h history target (invokes_attempt.mp hReaches)

theorem asks_run_bind {p : ExceptT ε (Prog I) α} {f : α → ExceptT ε (Prog I) β} (hFirst : p.run.Asks allowed)
    (hRest : ∀ value, (f value).run.Asks allowed) : (p >>= f).run.Asks allowed := by
  intro history target hReaches
  obtain h | ⟨first, value, second, -, -, h⟩ := invokes_bind.mp hReaches
  · exact hFirst history target h
  · exact hRest value second target h

end Fallible

end Resurrect.Interaction
