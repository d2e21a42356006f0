import Resurrect.Foundation.Interaction

/-! # Two programs before one environment

An environment answers from a state and moves on to another. Two fallible programs
meet environments of their own queries over the same states; they are in lockstep
where, from every state, both fail or both return related values and leave the
environment in the same state.
-/

namespace Resurrect.Interaction

variable {I J : Interface} {σ α β γ τ : Type}

structure Environment (I : Interface) (σ : Type) where
  answer : σ → (query : I.Query) → I.Answer query
  next : σ → I.Query → σ

/-- The one run of a program before an environment, with the state it leaves. -/
def Prog.play (env : Environment I σ) : Prog I α → σ → α × σ
  | .done value, state => (value, state)
  | .call query next, state => (next (env.answer state query)).play env (env.next state query)

section Play

variable {env : Environment I σ} {state : σ}

theorem play_bind (p : Prog I α) (f : α → Prog I β) :
    (p >>= f).play env state = (f (p.play env state).1).play env (p.play env state).2 := by
  induction p generalizing state with
  | done value => rfl
  | call query next ih =>
    rw [Prog.call_bind, Prog.play, Prog.play]
    exact ih _

theorem play_ask (query : I.Query) : (Prog.ask query).play env state = (env.answer state query, env.next state query) := rfl

end Play

section Fallible

variable {ε δ : Type} {env : Environment I σ} {other : Environment J σ} {R : α → β → Prop} {S : γ → τ → Prop}

/-- Whatever the state, `p` returns `value` and leaves the state as it is. -/
def Yields (env : Environment I σ) (p : ExceptT ε (Prog I) α) (value : α) : Prop :=
  ∀ state, p.run.play env state = (.ok value, state)

theorem play_run_bind (p : ExceptT ε (Prog I) α) (f : α → ExceptT ε (Prog I) γ) (state : σ) :
    (p >>= f).run.play env state = match p.run.play env state with
      | (.ok value, after) => (f value).run.play env after
      | (.error error, after) => (.error error, after) := by
  rw [ExceptT.run_bind, play_bind]
  cases p.run.play env state with
  | mk result after =>
    cases result with
    | ok value => rfl
    | error error => rfl

theorem play_run_bind_ok {p : ExceptT ε (Prog I) α} {state after : σ} {value : α}
    (h : p.run.play env state = (.ok value, after)) (f : α → ExceptT ε (Prog I) γ) :
    (p >>= f).run.play env state = (f value).run.play env after := by
  rw [play_run_bind, h]

theorem play_lift_bind (p : Prog I α) (f : α → ExceptT ε (Prog I) γ) (state : σ) :
    (ExceptT.lift p >>= f).run.play env state = (f (p.play env state).1).run.play env (p.play env state).2 := by
  rw [ExceptT.run_bind_lift, play_bind]

theorem play_attempt {κ : Type} (convert : κ → ε) (p : Prog I (Except κ α)) (state : σ) :
    (attempt convert p).run.play env state = ((p.play env state).1.mapError convert, (p.play env state).2) := by
  change (p >>= _).play env state = _
  rw [play_bind]
  cases p.play env state with
  | mk result after =>
    cases result with
    | ok value => rfl
    | error error => rfl

theorem yields_pure (value : α) : Yields env (pure value : ExceptT ε (Prog I) α) value := fun _ => rfl

theorem Yields.bind {p : ExceptT ε (Prog I) α} {f : α → ExceptT ε (Prog I) γ} {value : α} {result : γ}
    (h : Yields env p value) (hRest : Yields env (f value) result) : Yields env (p >>= f) result := by
  intro state
  rw [play_run_bind, h state]
  exact hRest state

theorem yields_attempt {κ : Type} {convert : κ → ε} {p : Prog I (Except κ α)} {a : α}
    (h : ∀ state, p.play env state = (.ok a, state)) : Yields env (attempt convert p) a := by
  intro state
  change (p >>= _).play env state = _
  rw [play_bind, h state]
  rfl

/-- Whatever the state, `p` fails. -/
def Fails (env : Environment I σ) (p : ExceptT ε (Prog I) α) : Prop :=
  ∀ state, ∃ failure after, p.run.play env state = (.error failure, after)

theorem fails_throw (failure : ε) : Fails env (throw failure : ExceptT ε (Prog I) α) := fun state => ⟨failure, state, rfl⟩

theorem Fails.bind {p : ExceptT ε (Prog I) α} (h : Fails env p) (f : α → ExceptT ε (Prog I) γ) : Fails env (p >>= f) := by
  intro state
  obtain ⟨failure, after, hPlay⟩ := h state
  exact ⟨failure, after, by rw [play_run_bind, hPlay]⟩

theorem Yields.bind_fails {p : ExceptT ε (Prog I) α} {f : α → ExceptT ε (Prog I) γ} {value : α} (h : Yields env p value)
    (hRest : Fails env (f value)) : Fails env (p >>= f) := by
  intro state
  obtain ⟨failure, after, hPlay⟩ := hRest state
  exact ⟨failure, after, by rw [play_run_bind, h state]; exact hPlay⟩

/-- Two ends alike: both failed, or both returned, related values and in the same state. -/
inductive Alike (R : α → β → Prop) : Except ε α × σ → Except δ β × σ → Prop
  | ok {value : α} {image : β} {state : σ} (h : R value image) : Alike R (.ok value, state) (.ok image, state)
  | error {failure : ε} {reason : δ} {state after : σ} : Alike R (.error failure, state) (.error reason, after)

def Lockstep (env : Environment I σ) (other : Environment J σ) (R : α → β → Prop) (p : ExceptT ε (Prog I) α)
    (q : ExceptT δ (Prog J) β) : Prop :=
  ∀ state, Alike R (p.run.play env state) (q.run.play other state)

theorem Lockstep.pure {value : α} {image : β} (h : R value image) :
    Lockstep env other R (pure value : ExceptT ε (Prog I) α) (pure image : ExceptT δ (Prog J) β) := fun _ => .ok h

theorem Lockstep.throw {failure : ε} {reason : δ} :
    Lockstep env other R (throw failure : ExceptT ε (Prog I) α) (throw reason : ExceptT δ (Prog J) β) := fun _ => .error

variable {p : ExceptT ε (Prog I) α} {q : ExceptT δ (Prog J) β} {f : α → ExceptT ε (Prog I) γ}
  {g : β → ExceptT δ (Prog J) τ}

theorem Lockstep.of_fails (h : Fails env p) (hOther : Fails other q) : Lockstep env other R p q := by
  intro state
  obtain ⟨failure, after, hPlay⟩ := h state
  obtain ⟨reason, left, hPlayOther⟩ := hOther state
  rw [hPlay, hPlayOther]
  exact .error

theorem Lockstep.bind (h : Lockstep env other R p q)
    (hRest : ∀ value image, R value image → Lockstep env other S (f value) (g image)) :
    Lockstep env other S (p >>= f) (q >>= g) := by
  intro state
  rw [play_run_bind, play_run_bind]
  generalize hp : p.run.play env state = first
  generalize hq : q.run.play other state = second
  have hEnds := h state
  rw [hp, hq] at hEnds
  cases hEnds with
  | ok hRel => exact hRest _ _ hRel _
  | error => exact .error

/-- What one program asks beyond the other is nothing to the lockstep where it leaves the state alone. -/
theorem Lockstep.bind_left {a : α} {r : ExceptT δ (Prog J) τ} (h : Yields env p a)
    (hRest : Lockstep env other S (f a) r) : Lockstep env other S (p >>= f) r := by
  intro state
  rw [play_run_bind, h state]
  exact hRest state

theorem Lockstep.bind_right {image : β} {r : ExceptT ε (Prog I) γ} (h : Yields other q image)
    (hRest : Lockstep env other S r (g image)) : Lockstep env other S r (q >>= g) := by
  intro state
  rw [play_run_bind, h state]
  exact hRest state

/-- Both ask, and both environments move on alike. -/
theorem Lockstep.ask_bind {query : I.Query} {asked : J.Query} {f : I.Answer query → ExceptT ε (Prog I) γ}
    {g : J.Answer asked → ExceptT δ (Prog J) τ} (hNext : ∀ state, env.next state query = other.next state asked)
    (hRest : ∀ state, Lockstep env other S (f (env.answer state query)) (g (other.answer state asked))) :
    Lockstep env other S (ExceptT.lift (Prog.ask query) >>= f) (ExceptT.lift (Prog.ask asked) >>= g) := by
  intro state
  have h := hRest state (env.next state query)
  rw [hNext] at h
  rw [play_run_bind, play_run_bind]
  change Alike S ((f (env.answer state query)).run.play env (env.next state query)) _
  rw [hNext]
  exact h

theorem Alike.isOk_eq {first : Except ε α × σ} {second : Except δ β × σ} (h : Alike R first second) :
    first.1.isOk = second.1.isOk := by
  cases h with
  | ok => rfl
  | error => rfl

end Fallible

end Resurrect.Interaction
