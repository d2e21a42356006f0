import Mathlib.Logic.Equiv.Defs
import Mathlib.Tactic.TypeStar

/-! # Programs that talk to an answering environment

A program is a tree: it returns, or it asks a query and goes on with whatever
answer comes back. Nothing is assumed of the answers, so a statement about every
run of a program holds for every environment, also one whose answers depend on
the history. `Runs` is a completed run, `Reaches` the moment of an invocation
whose answer may never come.
-/

namespace Resurrect.Interaction

/-- The queries a program may ask, each with the type of its answers. -/
structure Interface where
  Query : Type
  Answer : Query → Type

structure Event (I : Interface) where
  query : I.Query
  answer : I.Answer query

inductive Prog (I : Interface) (α : Type) where
  | done (value : α)
  | call (query : I.Query) (next : I.Answer query → Prog I α)

namespace Prog

variable {I : Interface} {α β γ : Type}

def bind : Prog I α → (α → Prog I β) → Prog I β
  | .done value, f => f value
  | .call query next, f => .call query fun answer => (next answer).bind f

instance : Monad (Prog I) where
  pure := .done
  bind := bind

def ask (query : I.Query) : Prog I (I.Answer query) := .call query .done

theorem call_bind (query : I.Query) (next : I.Answer query → Prog I α) (f : α → Prog I β) :
    (Prog.call query next >>= f) = .call query fun answer => next answer >>= f := rfl

theorem bind_done (p : Prog I α) : (p >>= Prog.done) = p := by
  induction p with
  | done value => rfl
  | call query next ih => rw [call_bind]; exact congrArg _ (funext ih)

theorem bind_assoc (p : Prog I α) (f : α → Prog I β) (g : β → Prog I γ) :
    (p >>= f) >>= g = p >>= fun a => f a >>= g := by
  induction p with
  | done value => rfl
  | call query next ih => rw [call_bind, call_bind, call_bind]; exact congrArg _ (funext ih)

instance : LawfulMonad (Prog I) :=
  LawfulMonad.mk' (Prog I) bind_done (fun _ _ => rfl) bind_assoc

/-- `p` asks exactly the queries of `trace`, gets its answers and returns `result`. -/
def Runs : Prog I α → List (Event I) → α → Prop
  | .done value, trace, result => trace = [] ∧ result = value
  | .call query next, trace, result =>
      ∃ answer rest, trace = ⟨query, answer⟩ :: rest ∧ (next answer).Runs rest result

/-- After the answered queries of `history`, `p` invokes `target`. -/
def Reaches : Prog I α → List (Event I) → I.Query → Prop
  | .done _, _, _ => False
  | .call query next, history, target => (history = [] ∧ target = query) ∨
      ∃ answer rest, history = ⟨query, answer⟩ :: rest ∧ (next answer).Reaches rest target

@[simp] theorem runs_done {value : α} {trace : List (Event I)} {result : α} :
    (Prog.done value).Runs trace result ↔ trace = [] ∧ result = value := Iff.rfl

@[simp] theorem runs_pure {value : α} {trace : List (Event I)} {result : α} :
    (pure value : Prog I α).Runs trace result ↔ trace = [] ∧ result = value := Iff.rfl

theorem runs_call {query : I.Query} {next : I.Answer query → Prog I α} {trace : List (Event I)}
    {result : α} : (Prog.call query next).Runs trace result ↔
      ∃ answer rest, trace = ⟨query, answer⟩ :: rest ∧ (next answer).Runs rest result := Iff.rfl

@[simp] theorem reaches_done {value : α} {history : List (Event I)} {target : I.Query} :
    ¬ (Prog.done value).Reaches history target := id

@[simp] theorem reaches_pure {value : α} {history : List (Event I)} {target : I.Query} :
    ¬ (pure value : Prog I α).Reaches history target := id

theorem reaches_call {query : I.Query} {next : I.Answer query → Prog I α}
    {history : List (Event I)} {target : I.Query} :
    (Prog.call query next).Reaches history target ↔ (history = [] ∧ target = query) ∨
      ∃ answer rest, history = ⟨query, answer⟩ :: rest ∧ (next answer).Reaches rest target := Iff.rfl

theorem runs_bind {p : Prog I α} {f : α → Prog I β} {trace : List (Event I)} {result : β} :
    (p >>= f).Runs trace result ↔
      ∃ first value second, trace = first ++ second ∧ p.Runs first value ∧
        (f value).Runs second result := by
  induction p generalizing trace with
  | done value =>
    constructor
    · intro h
      exact ⟨[], value, trace, rfl, ⟨rfl, rfl⟩, h⟩
    · rintro ⟨_, _, second, rfl, ⟨rfl, rfl⟩, h⟩
      exact h
  | call query next ih =>
    rw [call_bind, runs_call]
    constructor
    · rintro ⟨answer, rest, rfl, h⟩
      obtain ⟨first, value, second, rfl, hFirst, hSecond⟩ := (ih answer).mp h
      exact ⟨_ :: first, value, second, rfl, ⟨answer, first, rfl, hFirst⟩, hSecond⟩
    · rintro ⟨_, value, second, rfl, ⟨answer, first, rfl, hFirst⟩, hSecond⟩
      exact ⟨answer, first ++ second, rfl, (ih answer).mpr ⟨first, value, second, rfl, hFirst, hSecond⟩⟩

theorem reaches_bind {p : Prog I α} {f : α → Prog I β} {history : List (Event I)}
    {target : I.Query} : (p >>= f).Reaches history target ↔ p.Reaches history target ∨
      ∃ first value second, history = first ++ second ∧ p.Runs first value ∧
        (f value).Reaches second target := by
  induction p generalizing history with
  | done value =>
    constructor
    · intro h
      exact .inr ⟨[], value, history, rfl, ⟨rfl, rfl⟩, h⟩
    · rintro (h | ⟨_, _, second, rfl, ⟨rfl, rfl⟩, h⟩)
      · exact h.elim
      · exact h
  | call query next ih =>
    rw [call_bind, reaches_call, reaches_call]
    constructor
    · rintro (h | ⟨answer, rest, rfl, h⟩)
      · exact .inl (.inl h)
      · obtain h | ⟨first, value, second, rfl, hFirst, hSecond⟩ := (ih answer).mp h
        · exact .inl (.inr ⟨answer, rest, rfl, h⟩)
        · exact .inr ⟨_ :: first, value, second, rfl, ⟨answer, first, rfl, hFirst⟩, hSecond⟩
    · rintro ((h | ⟨answer, rest, rfl, h⟩) | ⟨_, value, second, rfl, ⟨answer, first, rfl, hFirst⟩, hSecond⟩)
      · exact .inl h
      · exact .inr ⟨answer, rest, rfl, (ih answer).mpr (.inl h)⟩
      · exact .inr ⟨answer, first ++ second, rfl,
          (ih answer).mpr (.inr ⟨first, value, second, rfl, hFirst, hSecond⟩)⟩

@[simp] theorem runs_ask {query : I.Query} {trace : List (Event I)} {result : I.Answer query} :
    (ask query).Runs trace result ↔ trace = [⟨query, result⟩] := by
  constructor
  · rintro ⟨_, _, rfl, rfl, rfl⟩
    rfl
  · rintro rfl
    exact ⟨result, [], rfl, rfl, rfl⟩

@[simp] theorem reaches_ask {query target : I.Query} {history : List (Event I)} :
    (ask query).Reaches history target ↔ history = [] ∧ target = query := by
  constructor
  · rintro (h | ⟨_, _, _, h⟩)
    · exact h
    · exact h.elim
  · exact .inl

theorem runs_ask_bind {query : I.Query} {f : I.Answer query → Prog I β} {trace : List (Event I)}
    {result : β} : (ask query >>= f).Runs trace result ↔
      ∃ answer rest, trace = ⟨query, answer⟩ :: rest ∧ (f answer).Runs rest result := Iff.rfl

theorem reaches_ask_bind {query : I.Query} {f : I.Answer query → Prog I β}
    {history : List (Event I)} {target : I.Query} :
    (ask query >>= f).Reaches history target ↔ (history = [] ∧ target = query) ∨
      ∃ answer rest, history = ⟨query, answer⟩ :: rest ∧ (f answer).Reaches rest target := Iff.rfl

/-- What a program returns is decided by the answers it got. -/
theorem Runs.unique {p : Prog I α} {trace : List (Event I)} {first second : α} (hFirst : p.Runs trace first)
    (hSecond : p.Runs trace second) : first = second := by
  induction p generalizing trace with
  | done value => exact hFirst.2.trans hSecond.2.symm
  | call query next ih =>
    obtain ⟨answer, rest, rfl, hFirst⟩ := hFirst
    obtain ⟨other, after, hTrace, hSecond⟩ := hSecond
    cases hTrace
    exact ih answer hFirst hSecond

theorem Runs.reaches {p : Prog I α} {before after : List (Event I)} {event : Event I} {result : α}
    (h : p.Runs (before ++ event :: after) result) : p.Reaches before event.query := by
  induction p generalizing before with
  | done value => simp at h
  | call query next ih =>
    obtain ⟨answer, rest, hTrace, hRest⟩ := h
    cases before with
    | nil =>
      obtain ⟨rfl, -⟩ := List.cons.inj hTrace
      exact .inl ⟨rfl, rfl⟩
    | cons first before =>
      obtain ⟨rfl, rfl⟩ := List.cons.inj hTrace
      exact .inr ⟨answer, before, rfl, ih answer hRest⟩

theorem Reaches.before {p : Prog I α} {before after : List (Event I)} {event : Event I} {target : I.Query}
    (h : p.Reaches (before ++ event :: after) target) : p.Reaches before event.query := by
  induction p generalizing before with
  | done value => exact h.elim
  | call query next ih =>
    obtain ⟨hTrace, -⟩ | ⟨answer, rest, hTrace, hRest⟩ := h
    · simp at hTrace
    cases before with
    | nil =>
      obtain ⟨rfl, -⟩ := List.cons.inj hTrace
      exact .inl ⟨rfl, rfl⟩
    | cons first before =>
      obtain ⟨rfl, rfl⟩ := List.cons.inj hTrace
      exact .inr ⟨answer, before, rfl, ih answer hRest⟩

/-- Whatever it is answered, `p` asks only queries of this kind. -/
def Asks (allowed : I.Query → Prop) (p : Prog I α) : Prop :=
  ∀ history target, p.Reaches history target → allowed target

section Asks

variable {allowed : I.Query → Prop}

theorem asks_pure (value : α) : (pure value : Prog I α).Asks allowed := fun _ _ h => absurd h reaches_pure

theorem asks_ask {query : I.Query} (h : allowed query) : (ask query).Asks allowed := by
  intro history target hReaches
  rwa [(reaches_ask.mp hReaches).2]

theorem Asks.bind {p : Prog I α} {f : α → Prog I β} (hFirst : p.Asks allowed) (hRest : ∀ value, (f value).Asks allowed) :
    (p >>= f).Asks allowed := by
  intro history target hReaches
  obtain h | ⟨first, value, second, -, -, h⟩ := reaches_bind.mp hReaches
  · exact hFirst history target h
  · exact hRest value second target h

theorem asks_ask_bind {query : I.Query} {f : I.Answer query → Prog I β} (h : allowed query)
    (hRest : ∀ answer, (f answer).Asks allowed) : (ask query >>= f).Asks allowed := (asks_ask h).bind hRest

theorem Asks.runs {p : Prog I α} (h : p.Asks allowed) {trace : List (Event I)} {result : α} (hRuns : p.Runs trace result) :
    ∀ event ∈ trace, allowed event.query := by
  intro event hMem
  obtain ⟨before, after, rfl⟩ := List.append_of_mem hMem
  exact h before event.query hRuns.reaches

end Asks

/-- Wherever `p` asks `query`, it goes on alike after the answers `a` and `b`. -/
def Identifies (query : I.Query) (a b : I.Answer query) : Prog I α → Prop
  | .done _ => True
  | .call asked next => (∀ h : asked = query, next (h ▸ a) = next (h ▸ b)) ∧
      ∀ answer, (next answer).Identifies query a b

section Identifies

variable {query : I.Query} {a b : I.Answer query}

theorem identifies_pure {value : α} : (pure value : Prog I α).Identifies query a b := trivial

theorem Identifies.bind {p : Prog I α} {f : α → Prog I β} (hp : p.Identifies query a b)
    (hf : ∀ value, (f value).Identifies query a b) : (p >>= f).Identifies query a b := by
  induction p with
  | done value => exact hf value
  | call asked next ih =>
    obtain ⟨hSame, hNext⟩ := hp
    refine ⟨fun h => ?_, fun answer => ih answer (hNext answer)⟩
    change next (h ▸ a) >>= f = next (h ▸ b) >>= f
    rw [hSame h]

theorem identifies_ask_bind {asked : I.Query} {f : I.Answer asked → Prog I β}
    (hSame : ∀ h : asked = query, f (h ▸ a) = f (h ▸ b)) (hf : ∀ value, (f value).Identifies query a b) :
    (ask asked >>= f).Identifies query a b := ⟨hSame, hf⟩

end Identifies

section Replay

variable [DecidableEq I.Query]

/-- Feeds recorded answers to a program; `none` when it asks something else, or stops elsewhere. -/
def replay : Prog I α → List (Event I) → Option α
  | .done value, [] => some value
  | .done _, _ :: _ => none
  | .call _ _, [] => none
  | .call query next, event :: rest =>
      if h : event.query = query then (next (h ▸ event.answer)).replay rest else none

theorem runs_of_replay {p : Prog I α} {trace : List (Event I)} {result : α}
    (h : p.replay trace = some result) : p.Runs trace result := by
  induction p generalizing trace with
  | done value =>
    cases trace with
    | nil => exact ⟨rfl, (Option.some.inj h).symm⟩
    | cons => cases h
  | call query next ih =>
    cases trace with
    | nil => cases h
    | cons event rest =>
      rw [replay] at h
      split at h
      · rename_i hQuery
        subst hQuery
        exact ⟨event.answer, rest, rfl, ih _ h⟩
      · cases h

/-- What a program asks next after recorded answers. -/
def awaits : Prog I α → List (Event I) → Option I.Query
  | .done _, _ => none
  | .call query _, [] => some query
  | .call query next, event :: rest =>
      if h : event.query = query then (next (h ▸ event.answer)).awaits rest else none

theorem reaches_of_awaits {p : Prog I α} {history : List (Event I)} {target : I.Query}
    (h : p.awaits history = some target) : p.Reaches history target := by
  induction p generalizing history with
  | done value => cases history <;> cases h
  | call query next ih =>
    cases history with
    | nil => exact .inl ⟨rfl, (Option.some.inj h).symm⟩
    | cons event rest =>
      rw [awaits] at h
      split at h
      · rename_i hQuery
        subst hQuery
        exact .inr ⟨event.answer, rest, rfl, ih _ h⟩
      · cases h

end Replay

end Prog

section Guarantee

variable {I : Interface} {α β : Type} {invoked : List (Event I) → I.Query → Prop}
  {returned : List (Event I) → α → Prop} {history : List (Event I)}

/-- Started after `history`, `p` keeps `invoked` at every invocation and `returned` at its end. -/
structure Guarantees (invoked : List (Event I) → I.Query → Prop) (returned : List (Event I) → α → Prop)
    (history : List (Event I)) (p : Prog I α) : Prop where
  reaches : ∀ {after target}, p.Reaches after target → invoked (history ++ after) target
  runs : ∀ {after result}, p.Runs after result → returned (history ++ after) result

theorem Guarantees.pure {value : α} (h : returned history value) :
    Guarantees invoked returned history (Pure.pure value) where
  reaches hReaches := absurd hReaches Prog.reaches_pure
  runs := by
    rintro after result ⟨rfl, rfl⟩
    rwa [List.append_nil]

theorem Guarantees.bind {p : Prog I β} {f : β → Prog I α} {middle : List (Event I) → β → Prop}
    (hFirst : Guarantees invoked middle history p)
    (hRest : ∀ before value, middle before value → Guarantees invoked returned before (f value)) :
    Guarantees invoked returned history (p >>= f) where
  reaches := by
    intro after target hReaches
    obtain h | ⟨first, value, second, rfl, hRuns, h⟩ := Prog.reaches_bind.mp hReaches
    · exact hFirst.reaches h
    · rw [← List.append_assoc]
      exact (hRest _ value (hFirst.runs hRuns)).reaches h
  runs := by
    intro after result hRuns
    obtain ⟨first, value, second, rfl, hRuns, h⟩ := Prog.runs_bind.mp hRuns
    rw [← List.append_assoc]
    exact (hRest _ value (hFirst.runs hRuns)).runs h

theorem Guarantees.ask_bind {query : I.Query} {f : I.Answer query → Prog I α}
    (hInvoked : invoked history query)
    (hRest : ∀ answer, Guarantees invoked returned (history ++ [⟨query, answer⟩]) (f answer)) :
    Guarantees invoked returned history (Prog.ask query >>= f) where
  reaches := by
    intro after target hReaches
    obtain ⟨rfl, rfl⟩ | ⟨answer, rest, rfl, h⟩ := Prog.reaches_ask_bind.mp hReaches
    · rwa [List.append_nil]
    · simpa only [List.append_assoc, List.singleton_append] using (hRest answer).reaches h
  runs := by
    intro after result hRuns
    obtain ⟨answer, rest, rfl, h⟩ := Prog.runs_ask_bind.mp hRuns
    simpa only [List.append_assoc, List.singleton_append] using (hRest answer).runs h

theorem Guarantees.mono {p : Prog I α} {weaker : List (Event I) → α → Prop}
    (h : Guarantees invoked returned history p) (hWeaker : ∀ trace result, returned trace result →
      weaker trace result) : Guarantees invoked weaker history p where
  reaches := h.reaches
  runs hRuns := hWeaker _ _ (h.runs hRuns)

end Guarantee

section Fallible

variable {I : Interface} {ε α β : Type}

theorem bind_eq_ok {first : Except ε α} {next : α → Except ε β} {result : β} :
    (first >>= next) = .ok result ↔ ∃ value, first = .ok value ∧ next value = .ok result := by
  cases first with
  | error error => exact ⟨fun h => (by cases h), fun ⟨_, h, _⟩ => (by cases h)⟩
  | ok value => exact ⟨fun h => ⟨value, rfl, h⟩, fun ⟨_, hValue, h⟩ => Except.ok.inj hValue ▸ h⟩

def Returns (p : ExceptT ε (Prog I) α) (trace : List (Event I)) (result : α) : Prop :=
  p.run.Runs trace (.ok result)

@[simp] theorem returns_pure {value : α} {trace : List (Event I)} {result : α} :
    Returns (pure value : ExceptT ε (Prog I) α) trace result ↔ trace = [] ∧ result = value := by
  change trace = [] ∧ Except.ok result = Except.ok value ↔ _
  simp

@[simp] theorem returns_throw {error : ε} {trace : List (Event I)} {result : α} :
    ¬ Returns (throw error : ExceptT ε (Prog I) α) trace result := by
  rintro ⟨-, h⟩
  cases h

theorem returns_bind {p : ExceptT ε (Prog I) α} {f : α → ExceptT ε (Prog I) β}
    {trace : List (Event I)} {result : β} : Returns (p >>= f) trace result ↔
      ∃ first value second, trace = first ++ second ∧ Returns p first value ∧
        Returns (f value) second result := by
  rw [Returns, ExceptT.run_bind, Prog.runs_bind]
  constructor
  · rintro ⟨first, value, second, rfl, hFirst, hSecond⟩
    cases value with
    | ok value => exact ⟨first, value, second, rfl, hFirst, hSecond⟩
    | error error => cases hSecond.2
  · rintro ⟨first, value, second, rfl, hFirst, hSecond⟩
    exact ⟨first, .ok value, second, rfl, hFirst, hSecond⟩

/-- A query that may fail, its error converted on the way out. -/
def attempt {δ : Type} (convert : δ → ε) (p : Prog I (Except δ α)) : ExceptT ε (Prog I) α :=
  ExceptT.mk do
    match ← p with
    | .ok value => pure (.ok value)
    | .error error => pure (.error (convert error))

theorem returns_attempt {δ : Type} {convert : δ → ε} {p : Prog I (Except δ α)}
    {trace : List (Event I)} {result : α} :
    Returns (attempt convert p) trace result ↔ p.Runs trace (.ok result) := by
  change (p >>= _).Runs trace _ ↔ _
  rw [Prog.runs_bind]
  constructor
  · rintro ⟨first, value, second, rfl, hFirst, hSecond⟩
    cases value with
    | ok value =>
      obtain ⟨rfl, hValue⟩ := hSecond
      cases hValue
      simpa using hFirst
    | error error => cases hSecond.2
  · intro h
    exact ⟨trace, .ok result, [], by simp, h, rfl, rfl⟩

theorem returns_lift {p : Prog I α} {trace : List (Event I)} {result : α} :
    Returns (ExceptT.lift p : ExceptT ε (Prog I) α) trace result ↔ p.Runs trace result := by
  change (p >>= _).Runs trace _ ↔ _
  rw [Prog.runs_bind]
  constructor
  · rintro ⟨first, value, second, rfl, hFirst, rfl, hValue⟩
    cases hValue
    simpa using hFirst
  · intro h
    exact ⟨trace, result, [], by simp, h, rfl, rfl⟩

/-- What has been decided without a query. -/
def decided (result : Except ε α) : ExceptT ε (Prog I) α := ExceptT.mk (pure result)

theorem returns_decided {decision : Except ε α} {trace : List (Event I)} {result : α} :
    Returns (decided decision) trace result ↔ trace = [] ∧ decision = .ok result := by
  change trace = [] ∧ Except.ok result = decision ↔ _
  rw [eq_comm (a := decision)]

/-- A run that ends with an error. -/
def Throws (p : ExceptT ε (Prog I) α) (trace : List (Event I)) (error : ε) : Prop := p.run.Runs trace (.error error)

theorem throws_throw {thrown error : ε} {trace : List (Event I)} :
    Throws (throw thrown : ExceptT ε (Prog I) α) trace error ↔ trace = [] ∧ error = thrown := by
  change trace = [] ∧ Except.error error = Except.error thrown ↔ _
  simp

@[simp] theorem throws_pure {value : α} {trace : List (Event I)} {error : ε} :
    ¬ Throws (pure value : ExceptT ε (Prog I) α) trace error := by
  rintro ⟨-, h⟩
  cases h

theorem throws_bind {p : ExceptT ε (Prog I) α} {f : α → ExceptT ε (Prog I) β} {trace : List (Event I)} {error : ε} :
    Throws (p >>= f) trace error ↔ Throws p trace error ∨
      ∃ first value second, trace = first ++ second ∧ Returns p first value ∧ Throws (f value) second error := by
  rw [Throws, ExceptT.run_bind, Prog.runs_bind]
  constructor
  · rintro ⟨first, value, second, rfl, hFirst, hSecond⟩
    cases value with
    | ok value => exact .inr ⟨first, value, second, rfl, hFirst, hSecond⟩
    | error thrown =>
      obtain ⟨rfl, hThrown⟩ := hSecond
      cases hThrown
      exact .inl (by rwa [List.append_nil])
  · rintro (hFirst | ⟨first, value, second, rfl, hFirst, hSecond⟩)
    · exact ⟨trace, .error error, [], by simp, hFirst, rfl, rfl⟩
    · exact ⟨first, .ok value, second, rfl, hFirst, hSecond⟩

theorem throws_attempt {δ : Type} {convert : δ → ε} {p : Prog I (Except δ α)} {trace : List (Event I)} {error : ε} :
    Throws (attempt convert p) trace error ↔ ∃ cause, p.Runs trace (.error cause) ∧ error = convert cause := by
  change (p >>= _).Runs trace _ ↔ _
  rw [Prog.runs_bind]
  constructor
  · rintro ⟨first, value, second, rfl, hFirst, hSecond⟩
    cases value with
    | ok value => cases hSecond.2
    | error cause =>
      obtain ⟨rfl, hCause⟩ := hSecond
      rw [List.append_nil]
      exact ⟨cause, hFirst, Except.error.inj hCause⟩
  · rintro ⟨cause, hCause, rfl⟩
    exact ⟨trace, .error cause, [], by simp, hCause, rfl, rfl⟩

theorem returns_tryCatch {p : ExceptT ε (Prog I) α} {handler : ε → ExceptT ε (Prog I) α} {trace : List (Event I)}
    {result : α} : Returns (tryCatch p handler) trace result ↔ Returns p trace result ∨
      ∃ first error second, trace = first ++ second ∧ Throws p first error ∧ Returns (handler error) second result := by
  change (p.run >>= _).Runs trace _ ↔ _
  rw [Prog.runs_bind]
  constructor
  · rintro ⟨first, value, second, rfl, hFirst, hSecond⟩
    cases value with
    | ok value =>
      obtain ⟨rfl, hValue⟩ := hSecond
      cases hValue
      exact .inl (by rwa [List.append_nil])
    | error error => exact .inr ⟨first, error, second, rfl, hFirst, hSecond⟩
  · rintro (hFirst | ⟨first, error, second, rfl, hFirst, hSecond⟩)
    · exact ⟨trace, .ok result, [], by simp, hFirst, rfl, rfl⟩
    · exact ⟨first, .error error, second, rfl, hFirst, hSecond⟩

theorem throws_tryCatch {p : ExceptT ε (Prog I) α} {handler : ε → ExceptT ε (Prog I) α} {trace : List (Event I)}
    {error : ε} : Throws (tryCatch p handler) trace error ↔
      ∃ first thrown second, trace = first ++ second ∧ Throws p first thrown ∧ Throws (handler thrown) second error := by
  change (p.run >>= _).Runs trace _ ↔ _
  rw [Prog.runs_bind]
  constructor
  · rintro ⟨first, value, second, rfl, hFirst, hSecond⟩
    cases value with
    | ok value => cases hSecond.2
    | error thrown => exact ⟨first, thrown, second, rfl, hFirst, hSecond⟩
  · rintro ⟨first, thrown, second, rfl, hFirst, hSecond⟩
    exact ⟨first, .error thrown, second, rfl, hFirst, hSecond⟩

/-- A fallible program, whether it will end with an error or not, invokes `target`. -/
def Invokes (p : ExceptT ε (Prog I) α) (history : List (Event I)) (target : I.Query) : Prop :=
  p.run.Reaches history target

@[simp] theorem invokes_pure {value : α} {history : List (Event I)} {target : I.Query} :
    ¬ Invokes (pure value : ExceptT ε (Prog I) α) history target := id

@[simp] theorem invokes_throw {error : ε} {history : List (Event I)} {target : I.Query} :
    ¬ Invokes (throw error : ExceptT ε (Prog I) α) history target := id

theorem invokes_bind {p : ExceptT ε (Prog I) α} {f : α → ExceptT ε (Prog I) β}
    {history : List (Event I)} {target : I.Query} : Invokes (p >>= f) history target ↔
      Invokes p history target ∨ ∃ first value second, history = first ++ second ∧
        Returns p first value ∧ Invokes (f value) second target := by
  rw [Invokes, ExceptT.run_bind, Prog.reaches_bind]
  apply or_congr Iff.rfl
  constructor
  · rintro ⟨first, value, second, rfl, hFirst, hSecond⟩
    cases value with
    | ok value => exact ⟨first, value, second, rfl, hFirst, hSecond⟩
    | error error => exact hSecond.elim
  · rintro ⟨first, value, second, rfl, hFirst, hSecond⟩
    exact ⟨first, .ok value, second, rfl, hFirst, hSecond⟩

theorem Returns.invokes_of_mem {p : ExceptT ε (Prog I) α} {trace : List (Event I)} {result : α}
    (h : Returns p trace result) {event : Event I} (hMem : event ∈ trace) :
    ∃ before, Invokes p before event.query := by
  obtain ⟨before, after, rfl⟩ := List.append_of_mem hMem
  exact ⟨before, Prog.Runs.reaches h⟩

theorem invokes_attempt {δ : Type} {convert : δ → ε} {p : Prog I (Except δ α)}
    {history : List (Event I)} {target : I.Query} :
    Invokes (attempt convert p) history target ↔ p.Reaches history target := by
  change (p >>= _).Reaches history target ↔ _
  rw [Prog.reaches_bind]
  constructor
  · rintro (h | ⟨first, value, second, rfl, hFirst, hSecond⟩)
    · exact h
    · cases value <;> exact hSecond.elim
  · exact .inl

theorem invokes_lift {p : Prog I α} {history : List (Event I)} {target : I.Query} :
    Invokes (ExceptT.lift p : ExceptT ε (Prog I) α) history target ↔ p.Reaches history target := by
  change (p >>= _).Reaches history target ↔ _
  rw [Prog.reaches_bind]
  constructor
  · rintro (h | ⟨first, value, second, rfl, hFirst, hSecond⟩)
    · exact h
    · exact hSecond.elim
  · exact .inl

/-- What a fallible program keeps where it returns, and where it fails. -/
def Ends (kept : List (Event I) → α → Prop) (failed : List (Event I) → ε → Prop) : List (Event I) → Except ε α → Prop
  | trace, .ok value => kept trace value
  | trace, .error error => failed trace error

section Guarantees

variable {invoked : List (Event I) → I.Query → Prop} {history : List (Event I)} {failed : List (Event I) → ε → Prop}
  {middle : List (Event I) → α → Prop} {kept : List (Event I) → β → Prop}

theorem Guarantees.ask {query : I.Query} {returned : List (Event I) → I.Answer query → Prop}
    (hInvoked : invoked history query) (hReturned : ∀ answer, returned (history ++ [⟨query, answer⟩]) answer) :
    Guarantees invoked returned history (Prog.ask query) where
  reaches hReaches := by
    obtain ⟨rfl, rfl⟩ := Prog.reaches_ask.mp hReaches
    rwa [List.append_nil]
  runs hRuns := by
    obtain rfl := Prog.runs_ask.mp hRuns
    exact hReturned _

theorem Guarantees.run_bind {p : ExceptT ε (Prog I) α} {f : α → ExceptT ε (Prog I) β}
    (hFirst : Guarantees invoked (Ends middle failed) history p.run)
    (hRest : ∀ before value, middle before value → Guarantees invoked (Ends kept failed) before (f value).run) :
    Guarantees invoked (Ends kept failed) history (p >>= f).run := by
  rw [ExceptT.run_bind]
  refine hFirst.bind fun before result hResult => ?_
  cases result with
  | ok value => exact hRest before value hResult
  | error error => exact Guarantees.pure hResult

theorem Guarantees.lift_bind {p : Prog I α} {f : α → ExceptT ε (Prog I) β} (hFirst : Guarantees invoked middle history p)
    (hRest : ∀ before value, middle before value → Guarantees invoked (Ends kept failed) before (f value).run) :
    Guarantees invoked (Ends kept failed) history (ExceptT.lift p >>= f).run := by
  rw [ExceptT.run_bind_lift]
  exact hFirst.bind hRest

theorem Guarantees.attempt {δ : Type} {convert : δ → ε} {p : Prog I (Except δ α)}
    (h : Guarantees invoked (Ends middle fun trace error => failed trace (convert error)) history p) :
    Guarantees invoked (Ends middle failed) history (attempt convert p).run := by
  refine h.bind fun before result hResult => ?_
  cases result with
  | ok value => exact Guarantees.pure hResult
  | error error => exact Guarantees.pure hResult

end Guarantees

end Fallible

section Embedding

structure Embedding (I J : Interface) where
  query : I.Query → J.Query
  answer : ∀ q, I.Answer q ≃ J.Answer (query q)

namespace Embedding

variable {I J : Interface} {α : Type} (e : Embedding I J)

def event (x : Event I) : Event J := ⟨e.query x.query, e.answer x.query x.answer⟩

def lift : Prog I α → Prog J α
  | .done value => .done value
  | .call query next => .call (e.query query) fun answer => lift (next ((e.answer query).symm answer))

theorem runs_lift {p : Prog I α} {trace : List (Event J)} {result : α} :
    (e.lift p).Runs trace result ↔ ∃ inner, trace = inner.map e.event ∧ p.Runs inner result := by
  induction p generalizing trace with
  | done value =>
    constructor
    · rintro ⟨rfl, rfl⟩
      exact ⟨[], rfl, rfl, rfl⟩
    · rintro ⟨_, rfl, rfl, rfl⟩
      exact ⟨rfl, rfl⟩
  | call query next ih =>
    constructor
    · rintro ⟨answer, rest, rfl, h⟩
      obtain ⟨inner, rfl, hInner⟩ := (ih _).mp h
      refine ⟨⟨query, (e.answer query).symm answer⟩ :: inner, ?_, _, inner, rfl, hInner⟩
      simp [event]
    · rintro ⟨_, rfl, answer, inner, rfl, hInner⟩
      refine ⟨e.answer query answer, inner.map e.event, rfl, (ih _).mpr ⟨inner, rfl, ?_⟩⟩
      rwa [Equiv.symm_apply_apply]

theorem reaches_lift {p : Prog I α} {history : List (Event J)} {target : J.Query} :
    (e.lift p).Reaches history target ↔
      ∃ inner q, history = inner.map e.event ∧ target = e.query q ∧ p.Reaches inner q := by
  induction p generalizing history with
  | done value =>
    constructor
    · intro h
      exact h.elim
    · rintro ⟨_, _, _, _, h⟩
      exact h.elim
  | call query next ih =>
    constructor
    · rintro (⟨rfl, rfl⟩ | ⟨answer, rest, rfl, h⟩)
      · exact ⟨[], query, rfl, rfl, .inl ⟨rfl, rfl⟩⟩
      · obtain ⟨inner, q, rfl, rfl, hInner⟩ := (ih _).mp h
        refine ⟨⟨query, (e.answer query).symm answer⟩ :: inner, q, ?_, rfl, .inr ⟨_, inner, rfl, hInner⟩⟩
        simp [event]
    · rintro ⟨_, q, rfl, rfl, ⟨rfl, rfl⟩ | ⟨answer, inner, rfl, hInner⟩⟩
      · exact .inl ⟨rfl, rfl⟩
      · refine .inr ⟨e.answer query answer, inner.map e.event, rfl, (ih _).mpr ⟨inner, q, rfl, rfl, ?_⟩⟩
        rwa [Equiv.symm_apply_apply]

end Embedding

end Embedding

section Loop

variable {I : Interface} {σ ρ : Type} {body : σ → Prog I (σ ⊕ ρ)} {start state : σ}
  {rounds : List (List (Event I))} {current : List (Event I)} {target : I.Query}

/-- The traces of the completed rounds of `loop { body }`: a body that returns `inl` goes round again. -/
inductive Rounds (body : σ → Prog I (σ ⊕ ρ)) (start : σ) : List (List (Event I)) → σ → Prop
  | nil : Rounds body start [] start
  | concat {rounds : List (List (Event I))} {round : List (Event I)} {state next : σ}
      (hRounds : Rounds body start rounds state) (hRound : (body state).Runs round (.inl next)) :
      Rounds body start (rounds ++ [round]) next

/-- After its completed rounds, and the answered queries of the round it is in, the loop invokes `target`. -/
def LoopReaches (body : σ → Prog I (σ ⊕ ρ)) (start : σ) (rounds : List (List (Event I)))
    (current : List (Event I)) (target : I.Query) : Prop :=
  ∃ state, Rounds body start rounds state ∧ (body state).Reaches current target

theorem Rounds.runs_of_mem (h : Rounds body start rounds state) {round : List (Event I)} (hMem : round ∈ rounds) :
    ∃ before next, (body before).Runs round (.inl next) := by
  induction h with
  | nil => cases hMem
  | concat hRounds hRound ih =>
    obtain hMem | hMem := List.mem_append.mp hMem
    · exact ih hMem
    · rw [List.mem_singleton.mp hMem]
      exact ⟨_, _, hRound⟩

/-- In a run that now invokes `target`, `query` was invoked after the events of `before`. -/
def InvokedIn (history : List (Event I)) (target : I.Query) (before : List (Event I)) (query : I.Query) : Prop :=
  (before = history ∧ query = target) ∨ ∃ event after, history = before ++ event :: after ∧ query = event.query

theorem Prog.Reaches.of_invokedIn {α : Type} {p : Prog I α} (h : p.Reaches current target)
    {before : List (Event I)} {query : I.Query} (hInvoked : InvokedIn current target before query) :
    p.Reaches before query := by
  obtain ⟨rfl, rfl⟩ | ⟨event, after, rfl, rfl⟩ := hInvoked
  · exact h
  · exact h.before

/-- An entry of two lists joined stands in one of them. -/
theorem append_eq_append_cons {α : Type} {first second before after : List α} {entry : α}
    (h : first ++ second = before ++ entry :: after) : (∃ rest, first = before ++ entry :: rest ∧ after = rest ++ second) ∨
      ∃ more, before = first ++ more ∧ second = more ++ entry :: after := by
  obtain ⟨more, rfl, hMore⟩ | ⟨rest, rfl, hRest⟩ := List.append_eq_append_iff.mp h
  · exact .inr ⟨more, rfl, hMore⟩
  · cases rest with
    | nil => exact .inr ⟨[], by simp, hRest.symm⟩
    | cons head rest =>
      obtain ⟨rfl, rfl⟩ := List.cons.inj hRest
      exact .inl ⟨rest, rfl, rfl⟩

theorem flatten_eq_append_cons {before after : List (Event I)} {event : Event I}
    (h : rounds.flatten = before ++ event :: after) : ∃ earlier round later part rest,
      rounds = earlier ++ round :: later ∧ round = part ++ event :: rest ∧ before = earlier.flatten ++ part := by
  induction rounds generalizing before with
  | nil => simp at h
  | cons round rounds ih =>
    rw [List.flatten_cons] at h
    obtain ⟨rest, hRound, -⟩ | ⟨more, rfl, hMore⟩ := append_eq_append_cons h
    · exact ⟨[], round, rounds, before, rest, rfl, hRound, rfl⟩
    · obtain ⟨earlier, other, later, part, rest, rfl, rfl, rfl⟩ := ih hMore
      exact ⟨round :: earlier, _, later, part, rest, rfl, rfl, by simp⟩

theorem InvokedIn.round {before : List (Event I)} {query : I.Query}
    (h : InvokedIn (rounds.flatten ++ current) target before query) :
    (∃ earlier round later part, rounds = earlier ++ round :: later ∧ before = earlier.flatten ++ part ∧
      ∃ event rest, round = part ++ event :: rest ∧ query = event.query) ∨
    ∃ part, before = rounds.flatten ++ part ∧ InvokedIn current target part query := by
  obtain ⟨rfl, rfl⟩ | ⟨event, after, hHistory, rfl⟩ := h
  · exact .inr ⟨current, rfl, .inl ⟨rfl, rfl⟩⟩
  · obtain ⟨rest, hRounds, -⟩ | ⟨part, rfl, hPart⟩ := append_eq_append_cons hHistory
    · obtain ⟨earlier, round, later, part, rest, hSplit, hRound, hBefore⟩ := flatten_eq_append_cons hRounds
      exact .inl ⟨earlier, round, later, part, hSplit, hBefore, event, rest, hRound, rfl⟩
    · exact .inr ⟨part, rfl, .inr ⟨event, after, hPart, rfl⟩⟩

end Loop

end Resurrect.Interaction
