import Mathlib.Data.List.Defs

/-!
# Labelled state machines and runs

A small transition-system kit. A `Machine` has one initial state and a partial
step function: `step s a = none` says that action `a` is not enabled in `s`.
All nondeterminism (scheduling, message delivery, adversarial input) sits in
the choice of the actions, so that a concrete run can be evaluated.

- `Machine.ReachVia ok`: the states reached by runs **every step of which meets
  `ok` in the state before the step**. `Machine.Reach` is the case without a
  condition.
- `Machine.ReachVia.invariant`: the induction rule. Every safety result about a
  machine is an instance of it.
- `Machine.PathVia ok s t`: the same for runs that begin in a state `s`, with its
  induction rule.
- `Machine.ReachVia.simulate`: the refinement rule between two machines.
- `Machine.exists_reachVia`: a run that evaluates gives reachability, which is
  how concrete traces are checked.
- `Machine.observe`: a machine with an observer beside it, which sees every step and
  influences none.
- `guardTo`: the building block of step functions, with its inversion lemma.
-/

namespace EasyTun.Lib

universe u v

/-! ## Guarded steps -/

/-- A step that is enabled only under `c`. -/
def guardTo {σ : Type u} (c : Prop) [Decidable c] (t : σ) : Option σ :=
  if c then some t else none

@[simp] theorem guardTo_eq_some {σ : Type u} {c : Prop} [Decidable c] {t t' : σ} :
    guardTo c t = some t' ↔ c ∧ t = t' := by
  unfold guardTo
  split
  · next h => simp [h]
  · next h => simp [h]

/-! ## Machines -/

/-- A labelled state machine: an initial state and a partial step. -/
structure Machine (σ : Type u) (α : Type v) where
  init : σ
  step : σ → α → Option σ

namespace Machine

variable {σ : Type u} {α : Type v} (M : Machine σ α)

/-- States reached by runs whose steps all meet `ok` in the state before. -/
inductive ReachVia (ok : σ → α → Prop) : σ → Prop where
  | init : ReachVia ok M.init
  | step {s t : σ} {a : α} :
      ReachVia ok s → ok s a → M.step s a = some t → ReachVia ok t

/-- States reached by any run. -/
def Reach : σ → Prop := M.ReachVia fun _ _ => True

variable {M}

/-- **The invariant rule**: what holds initially and is kept by every step that
meets the condition holds in every state reached. The step may use that its
source is reachable, so invariants can be stacked. -/
theorem ReachVia.invariant {ok : σ → α → Prop} {P : σ → Prop} {s : σ}
    (h : M.ReachVia ok s) (h0 : P M.init)
    (hstep : ∀ {s t : σ} {a : α}, M.ReachVia ok s → P s → ok s a →
      M.step s a = some t → P t) : P s := by
  induction h with
  | init => exact h0
  | step hr hok hs ih => exact hstep hr ih hok hs

/-- The invariant rule for runs without a condition. -/
theorem Reach.invariant {P : σ → Prop} {s : σ} (h : M.Reach s) (h0 : P M.init)
    (hstep : ∀ {s t : σ} {a : α}, P s → M.step s a = some t → P t) : P s :=
  ReachVia.invariant h h0 fun _ hp _ hs => hstep hp hs

/-- A weaker condition admits more runs. -/
theorem ReachVia.mono {ok ok' : σ → α → Prop} {s : σ} (h : M.ReachVia ok s)
    (himp : ∀ s a, ok s a → ok' s a) : M.ReachVia ok' s := by
  induction h with
  | init => exact .init
  | step _ hok hs ih => exact .step ih (himp _ _ hok) hs

/-- Every conditional run is a run. -/
theorem ReachVia.reach {ok : σ → α → Prop} {s : σ} (h : M.ReachVia ok s) :
    M.Reach s :=
  h.mono fun _ _ _ => trivial

theorem Reach.step {s t : σ} {a : α} (h : M.Reach s) (hs : M.step s a = some t) :
    M.Reach t :=
  ReachVia.step h trivial hs

/-! ## Runs from a state on -/

variable (M) in
/-- Runs from `s` whose steps all meet `ok` in the state before. -/
inductive PathVia (ok : σ → α → Prop) (s : σ) : σ → Prop where
  | refl : PathVia ok s s
  | step {t u : σ} {a : α} :
      PathVia ok s t → ok t a → M.step t a = some u → PathVia ok s u

/-- A run goes on from a state that was reached. -/
theorem ReachVia.path {ok ok' : σ → α → Prop} {s t : σ} (h : M.ReachVia ok s)
    (hp : M.PathVia ok' s t) (himp : ∀ s a, ok' s a → ok s a) : M.ReachVia ok t := by
  induction hp with
  | refl => exact h
  | step _ hok hs ih => exact .step ih (himp _ _ hok) hs

/-- The invariant rule from a state on. -/
theorem PathVia.invariant {ok : σ → α → Prop} {P : σ → Prop} {s t : σ} (h : M.PathVia ok s t)
    (h0 : P s) (hstep : ∀ {t u : σ} {a : α}, M.PathVia ok s t → P t → ok t a →
      M.step t a = some u → P u) : P t := by
  induction h with
  | refl => exact h0
  | step hp hok hs ih => exact hstep hp ih hok hs

/-! ## Simulation -/

/-- **Stuttering simulation**: when every step of `M` is matched by a step of an
abstract machine, or by none, every reachable state of `M` is related to a
reachable abstract one. Invariants of the abstract machine then transfer, and
the steps may use them already. -/
theorem ReachVia.simulate {τ : Type*} {β : Type*} {N : Machine τ β} {ok : σ → α → Prop}
    {ok' : τ → β → Prop} (R : σ → τ → Prop) (h0 : R M.init N.init)
    (hstep : ∀ {s s' : σ} {a : α} {t : τ}, N.ReachVia ok' t → R s t → ok s a →
      M.step s a = some s' → R s' t ∨ ∃ b t', ok' t b ∧ N.step t b = some t' ∧ R s' t')
    {s : σ} (h : M.ReachVia ok s) : ∃ t, N.ReachVia ok' t ∧ R s t := by
  induction h with
  | init => exact ⟨N.init, .init, h0⟩
  | step _ hok hs ih =>
    obtain ⟨t, ht, hR⟩ := ih
    rcases hstep ht hR hok hs with hR' | ⟨b, t', hok', hs', hR'⟩
    · exact ⟨t, ht, hR'⟩
    · exact ⟨t', .step ht hok' hs', hR'⟩

/-! ## Observers -/

section Observe

variable {ω : Type*}

/-- The machine with an observer: `note o s a t` is what the observer makes of the step `a`
from `s` to `t`. -/
def observe (M : Machine σ α) (o : ω) (note : ω → σ → α → σ → ω) : Machine (σ × ω) α where
  init := (M.init, o)
  step p a := (M.step p.1 a).map fun t => (t, note p.2 p.1 a t)

variable {o : ω} {note : ω → σ → α → σ → ω} {p q : σ × ω} {a : α}

theorem step_of_observe (h : (M.observe o note).step p a = some q) :
    M.step p.1 a = some q.1 ∧ q.2 = note p.2 p.1 a q.1 := by
  obtain ⟨t, ht, rfl⟩ := Option.map_eq_some_iff.mp h
  exact ⟨ht, rfl⟩

/-- An observed run is a run. -/
theorem ReachVia.unobserved {ok : σ × ω → α → Prop} {ok' : σ → α → Prop}
    (h : (M.observe o note).ReachVia ok p) (himp : ∀ p a, ok p a → ok' p.1 a) :
    M.ReachVia ok' p.1 := by
  induction h with
  | init => exact .init
  | step _ hok hs ih => exact .step ih (himp _ _ hok) (step_of_observe hs).1

end Observe

/-! ## Evaluating runs -/

variable (M)

/-- The state after a list of actions; `none` as soon as one is not enabled or
does not meet `ok`. -/
def runVia (ok : σ → α → Prop) [∀ s a, Decidable (ok s a)] (s : σ) :
    List α → Option σ
  | [] => some s
  | a :: as =>
    if ok s a then (M.step s a).bind fun t => runVia ok t as else none

/-- The state after a list of actions; `none` as soon as one is not enabled. -/
def run (s : σ) (as : List α) : Option σ := M.runVia (fun _ _ => True) s as

variable {M}

theorem ReachVia.runVia {ok : σ → α → Prop} [∀ s a, Decidable (ok s a)] {t : σ} :
    ∀ {s : σ} {as : List α}, M.ReachVia ok s → M.runVia ok s as = some t →
      M.ReachVia ok t
  | _, [], hs, h => by
    cases h
    exact hs
  | s, a :: as, hs, h => by
    unfold Machine.runVia at h
    split at h
    · next hok =>
      obtain ⟨u, hu, hrest⟩ := Option.bind_eq_some_iff.mp h
      exact (ReachVia.step hs hok hu).runVia hrest
    · cases h

theorem PathVia.runVia {ok : σ → α → Prop} [∀ s a, Decidable (ok s a)] {s u : σ} :
    ∀ {t : σ} {as : List α}, M.PathVia ok s t → M.runVia ok t as = some u → M.PathVia ok s u
  | _, [], ht, h => by
    cases h
    exact ht
  | t, a :: as, ht, h => by
    unfold Machine.runVia at h
    split at h
    · next hok =>
      obtain ⟨v, hv, hrest⟩ := Option.bind_eq_some_iff.mp h
      exact (PathVia.step ht hok hv).runVia hrest
    · cases h

/-- A conditional run that evaluates to a state reaches it. -/
theorem reachVia_of_runVia {ok : σ → α → Prop} [∀ s a, Decidable (ok s a)]
    {as : List α} {t : σ} (h : M.runVia ok M.init as = some t) :
    M.ReachVia ok t :=
  ReachVia.init.runVia h

/-- A conditional run that ends in a state which passes a check reaches such a
state. -/
theorem exists_reachVia {ok : σ → α → Prop} [∀ s a, Decidable (ok s a)] (as : List α)
    {check : σ → Prop} [DecidablePred check]
    (h : (M.runVia ok M.init as).any (fun s => check s) = true) :
    ∃ s, M.ReachVia ok s ∧ check s := by
  obtain ⟨s, hs, hc⟩ := (Option.any_eq_true ..).mp h
  exact ⟨s, reachVia_of_runVia hs, of_decide_eq_true hc⟩

/-- A run that ends in a state which passes a check reaches such a state. -/
theorem exists_reach (as : List α) {check : σ → Prop} [DecidablePred check]
    (h : (M.run M.init as).any (fun s => check s) = true) : ∃ s, M.Reach s ∧ check s :=
  exists_reachVia as h

end Machine

end EasyTun.Lib
