import Mathlib.Data.List.Induction

/-!
# Labelled transition systems

A run records the events taken from an initial state, oldest first, so a
predicate on runs may speak about the history as well as about the state that
was reached.
-/

namespace FrostTools

/-- Initial states, and the steps `s --e--> s'`. -/
structure TransitionSystem (σ ε : Type*) where
  init : σ → Prop
  step : σ → ε → σ → Prop

namespace TransitionSystem

variable {σ ε : Type*} {S : TransitionSystem σ ε}

/-- `S.Run es s`: the events `es`, taken in order from an initial state, lead to `s`. -/
inductive Run (S : TransitionSystem σ ε) : List ε → σ → Prop
  | start {s : σ} : S.init s → Run S [] s
  | snoc {es : List ε} {s s' : σ} {e : ε} : Run S es s → S.step s e s' → Run S (es ++ [e]) s'

def Reachable (S : TransitionSystem σ ε) (s : σ) : Prop := ∃ es, S.Run es s

theorem Run.reachable {es : List ε} {s : σ} (h : S.Run es s) : S.Reachable s := ⟨es, h⟩

theorem Reachable.step {s s' : σ} {e : ε} (h : S.Reachable s) (he : S.step s e s') :
    S.Reachable s' := by
  obtain ⟨es, hr⟩ := h
  exact ⟨es ++ [e], hr.snoc he⟩

/-- A history predicate that holds at the start and is kept by every step of a
run holds of every run. -/
theorem Run.invariant {P : List ε → σ → Prop} (hinit : ∀ s, S.init s → P [] s)
    (hstep : ∀ es s e s', S.Run es s → P es s → S.step s e s' → P (es ++ [e]) s')
    {es : List ε} {s : σ} (h : S.Run es s) : P es s := by
  induction h with
  | start h0 => exact hinit _ h0
  | snoc hr he ih => exact hstep _ _ _ _ hr ih he

theorem Reachable.invariant {P : σ → Prop} (hinit : ∀ s, S.init s → P s)
    (hstep : ∀ s e s', S.Reachable s → P s → S.step s e s' → P s')
    {s : σ} (h : S.Reachable s) : P s := by
  obtain ⟨es, hr⟩ := h
  exact hr.invariant (P := fun _ s => P s) hinit fun _ s e s' hs hp he =>
    hstep s e s' hs.reachable hp he

/-- A run passes through a state after each of its prefixes. -/
theorem Run.initial {es es' : List ε} {s : σ} (h : S.Run (es ++ es') s) : ∃ s₀, S.Run es s₀ := by
  induction es' using List.reverseRecOn generalizing s with
  | nil => exact ⟨s, by simpa using h⟩
  | append_singleton es' e ih =>
    rw [← List.append_assoc] at h
    generalize hl : es ++ es' ++ [e] = l at h
    cases h with
    | start _ => simp at hl
    | snoc hr _ =>
      obtain ⟨rfl, _⟩ := List.append_inj' hl rfl
      exact ih hr

theorem Run.step_of_append {es : List ε} {e : ε} {s' : σ} (h : S.Run (es ++ [e]) s') :
    ∃ s, S.Run es s ∧ S.step s e s' := by
  generalize hl : es ++ [e] = l at h
  cases h with
  | start _ => simp at hl
  | snoc hr he =>
    obtain ⟨rfl, h1⟩ := List.append_inj' hl rfl
    obtain rfl := List.singleton_inj.mp h1
    exact ⟨_, hr, he⟩

/-- The runs of `S` all of whose steps meet a condition on the state before
the step and the event. -/
def restrict (S : TransitionSystem σ ε) (cond : σ → ε → Prop) : TransitionSystem σ ε where
  init := S.init
  step s e s' := cond s e ∧ S.step s e s'

theorem Run.of_restrict {cond : σ → ε → Prop} {es : List ε} {s : σ}
    (h : (S.restrict cond).Run es s) : S.Run es s := by
  induction h with
  | start h0 => exact .start h0
  | snoc _ he ih => exact ih.snoc he.2

theorem Reachable.of_restrict {cond : σ → ε → Prop} {s : σ}
    (h : (S.restrict cond).Reachable s) : S.Reachable s := by
  obtain ⟨es, hr⟩ := h
  exact hr.of_restrict.reachable

def within (S : TransitionSystem σ ε) (good : σ → Prop) : TransitionSystem σ ε where
  init s := S.init s ∧ good s
  step s e s' := S.step s e s' ∧ good s'

theorem Run.of_within {good : σ → Prop} {es : List ε} {s : σ} (h : (S.within good).Run es s) :
    S.Run es s := by
  induction h with
  | start h0 => exact .start h0.1
  | snoc _ he ih => exact ih.snoc he.1

theorem Run.good {good : σ → Prop} {es : List ε} {s : σ} (h : (S.within good).Run es s) : good s := by
  cases h with
  | start h0 => exact h0.2
  | snoc _ he => exact he.2

/-- When a condition on steps decides whether a property is kept, the runs that meet
the condition at every step are those that never lose the property. -/
theorem run_restrict_iff_within {cond : σ → ε → Prop} {good : σ → Prop}
    (hinit : ∀ s, S.init s → good s)
    (hstep : ∀ s e s', S.Reachable s → good s → S.step s e s' → (cond s e ↔ good s'))
    {es : List ε} {s : σ} : (S.restrict cond).Run es s ↔ (S.within good).Run es s := by
  constructor
  · intro h
    induction h with
    | start h0 => exact .start ⟨h0, hinit _ h0⟩
    | snoc hr he ih =>
      exact ih.snoc ⟨he.2, (hstep _ _ _ hr.of_restrict.reachable ih.good he.2).mp he.1⟩
  · intro h
    induction h with
    | start h0 => exact .start h0.1
    | snoc hr he ih =>
      exact ih.snoc ⟨(hstep _ _ _ hr.of_within.reachable hr.good he.1).mpr he.2, he.1⟩

/-- When a condition on steps decides whether a property of the states is kept by steps of another
kind, the runs that meet the condition are those of such steps that never lose the property. -/
theorem run_restrict_iff_restrict_within {cond kept : σ → ε → Prop} {good : σ → Prop}
    (hinit : ∀ s, S.init s → good s)
    (hstep : ∀ s e s', S.Reachable s → good s → S.step s e s' → (cond s e ↔ kept s e ∧ good s'))
    {es : List ε} {s : σ} :
    (S.restrict cond).Run es s ↔ ((S.restrict kept).within good).Run es s := by
  constructor
  · intro h
    induction h with
    | start h0 => exact .start ⟨h0, hinit _ h0⟩
    | snoc hr he ih =>
      have hgood := (hstep _ _ _ hr.of_restrict.reachable ih.good he.2).mp he.1
      exact ih.snoc ⟨⟨hgood.1, he.2⟩, hgood.2⟩
  · intro h
    induction h with
    | start h0 => exact .start h0.1
    | snoc hr he ih =>
      have hreach := hr.of_within.of_restrict.reachable
      exact ih.snoc ⟨(hstep _ _ _ hreach hr.good he.1.2).mpr ⟨he.1.1, he.2⟩, he.1.2⟩

def ofStep (init : σ → Prop) (step : σ → ε → Option σ) : TransitionSystem σ ε where
  init := init
  step s e s' := step s e = some s'

/-- Takes the events in order, stopping at the first one that is not enabled or that
leads to a state without the property. -/
def exec (step : σ → ε → Option σ) (good : σ → Prop) [DecidablePred good] (s : σ) :
    List ε → Option σ
  | [] => some s
  | e :: es => ((step s e).filter fun s' => good s').bind fun s' => exec step good s' es

theorem Run.exec {init : σ → Prop} {step : σ → ε → Option σ} {good : σ → Prop} [DecidablePred good]
    {es es' : List ε} {s s' : σ} (h : ((ofStep init step).within good).Run es s)
    (he : TransitionSystem.exec step good s es' = some s') :
    ((ofStep init step).within good).Run (es ++ es') s' := by
  induction es' generalizing es s with
  | nil =>
    obtain rfl := Option.some.inj he
    simpa using h
  | cons e es' ih =>
    obtain ⟨t, ht, hes⟩ := Option.bind_eq_some_iff.mp he
    obtain ⟨hstep, hgood⟩ := Option.filter_eq_some_iff.mp ht
    rw [List.append_cons]
    exact ih (h.snoc ⟨hstep, of_decide_eq_true hgood⟩) hes

end TransitionSystem
end FrostTools
