import Mathlib.Logic.Basic

/-!
# Transition systems

A system has initial states and labelled steps. The states of its runs are its
reachable states.
-/

namespace Transition

universe u v

variable {σ : Type u} {α : Type v}

/-- A state that a run from an initial state reaches. -/
inductive Reachable (initial : σ → Prop) (step : σ → α → σ → Prop) : σ → Prop
  | start {s : σ} (h : initial s) : Reachable initial step s
  | next {s s' : σ} {a : α} (hs : Reachable initial step s) (h : step s a s') :
      Reachable initial step s'

variable {initial : σ → Prop} {step : σ → α → σ → Prop} {P : σ → Prop}

/-- What holds at the start and is kept by every step holds in every reachable state. -/
theorem Reachable.invariant {s : σ} (hs : Reachable initial step s)
    (hstart : ∀ s, initial s → P s) (hstep : ∀ s a s', P s → step s a s' → P s') : P s := by
  induction hs with
  | start h => exact hstart _ h
  | next _ h ih => exact hstep _ _ _ ih h

/-- Take the labelled steps of a list, one after the other. -/
def run (next : σ → α → Option σ) : σ → List α → Option σ
  | s, [] => some s
  | s, a :: as => (next s a).bind fun s' => run next s' as

/-- A run of a step function ends in a reachable state. -/
theorem Reachable.run {next : σ → α → Option σ} (hnext : ∀ s a s', next s a = some s' → step s a s')
    {s s' : σ} (hs : Reachable initial step s) {as : List α}
    (h : Transition.run next s as = some s') : Reachable initial step s' := by
  induction as generalizing s with
  | nil =>
    cases h
    exact hs
  | cons a as ih =>
    obtain ⟨s₁, hstep, hrest⟩ := Option.bind_eq_some_iff.mp h
    exact ih (.next hs (hnext _ _ _ hstep)) hrest

end Transition
