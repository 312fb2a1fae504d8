import Mathlib.Data.Nat.Notation
import Mathlib.Logic.Basic

/-!
# Programs that ask their environment

A program runs on a state and may stop to ask its environment: the operating
system, a library, or code of the application that calls back. All answers are
followed, so a statement about a program is about every behaviour of its
environment. The states in which a program asks are the ones that others can
observe while it runs.
-/

namespace Interaction

universe u

/-- A computation with its questions. It is done, asks in a state, or stops
because the steps allotted to its loops are used up. -/
inductive Comm (Q : Type u) (A : Q → Type u) (σ α : Type u) : Type u
  | done (a : α) (s : σ) : Comm Q A σ α
  | ask (q : Q) (s : σ) (next : A q → Comm Q A σ α) : Comm Q A σ α
  | stop : Comm Q A σ α

namespace Comm

variable {Q : Type u} {A : Q → Type u} {σ α β : Type u}

/-- Go on with another computation. -/
def bind : Comm Q A σ α → (α → σ → Comm Q A σ β) → Comm Q A σ β
  | done a s, f => f a s
  | ask q s next, f => ask q s fun r => (next r).bind f
  | stop, _ => stop

end Comm

/-- A program on the states `σ`. -/
def Program (Q : Type u) (A : Q → Type u) (σ α : Type u) : Type u := σ → Comm Q A σ α

/-- What is demanded of the questions, and what may be assumed of the answers. -/
structure Contract (Q : Type u) (A : Q → Type u) (σ : Type u) where
  asks : Q → σ → Prop
  answers : (q : Q) → σ → A q → Prop

namespace Program

variable {Q : Type u} {A : Q → Type u} {σ α β : Type u}

instance : Monad (Program Q A σ) where
  pure a := fun s => .done a s
  bind x f := fun s => (x s).bind fun a s' => f a s'

/-- The current state. -/
def get : Program Q A σ σ := fun s => .done s s

/-- Change the state. -/
def modify (f : σ → σ) : Program Q A σ PUnit := fun s => .done ⟨⟩ (f s)

/-- Ask the environment. -/
def ask (q : Q) : Program Q A σ (A q) := fun s => .ask q s fun r => .done r s

/-- Give up, for want of steps. -/
def stop : Program Q A σ α := fun _ => .stop

/-- A loop: repeat a step from a start value until it has a result, for at most
the given number of times. -/
def iterate (step : β → Program Q A σ (α ⊕ β)) : ℕ → β → Program Q A σ α
  | 0, _ => stop
  | n + 1, b => do
    match ← step b with
    | .inl a => pure a
    | .inr b' => iterate step n b'

end Program

namespace Comm

variable {Q : Type u} {A : Q → Type u} {σ α β : Type u} {C : Contract Q A σ}

/-- Every question is asked as demanded, and every result satisfies `P`. -/
def Meets (C : Contract Q A σ) (P : α → σ → Prop) : Comm Q A σ α → Prop
  | done a s => P a s
  | ask q s next => C.asks q s ∧ ∀ r, C.answers q s r → (next r).Meets C P
  | stop => True

/-- The states in which a computation asks, under the assumed answers. -/
inductive Reaches (C : Contract Q A σ) : Comm Q A σ α → Q → σ → Prop
  | here (q : Q) (s : σ) (next : A q → Comm Q A σ α) : Reaches C (ask q s next) q s
  | after {q q' : Q} {s s' : σ} {next : A q → Comm Q A σ α} (r : A q) (answer : C.answers q s r)
      (reaches : Reaches C (next r) q' s') : Reaches C (ask q s next) q' s'

/-- The results of a computation, under the assumed answers. -/
inductive Returns (C : Contract Q A σ) : Comm Q A σ α → α → σ → Prop
  | done (a : α) (s : σ) : Returns C (done a s) a s
  | after {q : Q} {s s' : σ} {a : α} {next : A q → Comm Q A σ α} (r : A q)
      (answer : C.answers q s r) (returns : Returns C (next r) a s') :
      Returns C (ask q s next) a s'

/-- Follow a computation in an environment that answers by a rule, to the question with
the given number. -/
def follow (answer : ℕ → (q : Q) → A q) : ℕ → ℕ → Comm Q A σ α → Option (Q × σ)
  | _, 0, ask q s _ => some (q, s)
  | i, n + 1, ask q _ next => follow answer (i + 1) n (next (answer i q))
  | _, _, done _ _ => none
  | _, _, stop => none

theorem Reaches.of_follow {answer : ℕ → (q : Q) → A q} (hanswers : ∀ q (s : σ) r, C.answers q s r)
    {i n : ℕ} {x : Comm Q A σ α} {q : Q} {s : σ} (h : x.follow answer i n = some (q, s)) :
    x.Reaches C q s := by
  induction n generalizing i x with
  | zero =>
    cases x with
    | ask q s next =>
      cases h
      exact .here _ _ _
    | done a s => cases h
    | stop => cases h
  | succ n ih =>
    cases x with
    | ask q s next => exact .after _ (hanswers _ _ _) (ih h)
    | done a s => cases h
    | stop => cases h

theorem Meets.reaches {P : α → σ → Prop} {x : Comm Q A σ α} {q : Q} {s : σ}
    (h : x.Meets C P) (hreaches : x.Reaches C q s) : C.asks q s := by
  induction hreaches with
  | here q s next => exact h.1
  | after r hanswer _ ih => exact ih (h.2 r hanswer)

theorem Meets.returns {P : α → σ → Prop} {x : Comm Q A σ α} {a : α} {s : σ}
    (h : x.Meets C P) (hreturns : x.Returns C a s) : P a s := by
  induction hreturns with
  | done a s => exact h
  | after r hanswer _ ih => exact ih (h.2 r hanswer)

/-- What is reached depends on the answers only, not on what is demanded of the questions. -/
theorem Reaches.of_answers {C' : Contract Q A σ} {x : Comm Q A σ α} {q : Q} {s : σ}
    (h : x.Reaches C q s) (hanswers : ∀ q s r, C.answers q s r → C'.answers q s r) :
    x.Reaches C' q s := by
  induction h with
  | here q s next => exact .here q s next
  | after r hanswer _ ih => exact .after r (hanswers _ _ _ hanswer) ih

theorem Meets.mono {P P' : α → σ → Prop} {x : Comm Q A σ α} (h : x.Meets C P)
    (himp : ∀ a s, P a s → P' a s) : x.Meets C P' := by
  induction x with
  | done a s => exact himp a s h
  | ask q s next ih => exact ⟨h.1, fun r hr => ih r (h.2 r hr)⟩
  | stop => trivial

theorem Meets.and {P P' : α → σ → Prop} {x : Comm Q A σ α} (h : x.Meets C P)
    (h' : x.Meets C P') : x.Meets C fun a s => P a s ∧ P' a s := by
  induction x with
  | done a s => exact ⟨h, h'⟩
  | ask q s next ih => exact ⟨h.1, fun r hr => ih r (h.2 r hr) (h'.2 r hr)⟩
  | stop => trivial

/-- What is shown under a condition holds under it. -/
theorem Meets.imp {p : Prop} {P P' : α → σ → Prop} {x : Comm Q A σ α} (h : x.Meets C P)
    (h' : p → x.Meets C P') : x.Meets C fun a s => P a s ∧ (p → P' a s) := by
  by_cases hp : p
  · exact (h.and (h' hp)).mono fun _ _ hboth => ⟨hboth.1, fun _ => hboth.2⟩
  · exact h.mono fun _ _ hleft => ⟨hleft, fun hp' => absurd hp' hp⟩

/-- The rule for sequences. -/
theorem meets_bind {P : β → σ → Prop} {x : Comm Q A σ α} {f : α → σ → Comm Q A σ β} :
    (x.bind f).Meets C P ↔ x.Meets C fun a s => (f a s).Meets C P := by
  induction x with
  | done a s => rfl
  | ask q s next ih => exact and_congr_right fun _ => forall₂_congr fun r _ => ih r
  | stop => rfl

/-- The results of a sequence are those of its second part. -/
theorem Returns.bind {x : Comm Q A σ α} {f : α → σ → Comm Q A σ β} {a : α} {b : β} {s s' : σ}
    (h : x.Returns C a s) (h' : (f a s).Returns C b s') : (x.bind f).Returns C b s' := by
  induction h with
  | done a s => exact h'
  | after r hanswer _ ih => exact .after r hanswer (ih h')

end Comm

namespace Program

variable {Q : Type u} {A : Q → Type u} {σ α β : Type u} {C : Contract Q A σ}
  {P : α → σ → Prop} {s : σ}

@[simp] theorem meets_pure {a : α} : ((pure a : Program Q A σ α) s).Meets C P ↔ P a s := Iff.rfl

@[simp] theorem meets_bind {P : β → σ → Prop} {x : Program Q A σ α} {f : α → Program Q A σ β} :
    ((x >>= f) s).Meets C P ↔ (x s).Meets C fun a s' => (f a s').Meets C P :=
  Comm.meets_bind

@[simp] theorem meets_get {P : σ → σ → Prop} :
    ((get : Program Q A σ σ) s).Meets C P ↔ P s s := Iff.rfl

@[simp] theorem meets_modify {P : PUnit → σ → Prop} {f : σ → σ} :
    ((modify f : Program Q A σ PUnit) s).Meets C P ↔ P ⟨⟩ (f s) := Iff.rfl

@[simp] theorem meets_ask {q : Q} {P : A q → σ → Prop} :
    ((ask q : Program Q A σ (A q)) s).Meets C P ↔
      C.asks q s ∧ ∀ r, C.answers q s r → P r s := Iff.rfl

@[simp] theorem meets_ite {p : Prop} [Decidable p] {x y : Program Q A σ α} :
    ((if p then x else y) s).Meets C P ↔ if p then (x s).Meets C P else (y s).Meets C P := by
  split <;> rfl

@[simp] theorem meets_stop : ((stop : Program Q A σ α) s).Meets C P := trivial

/-- The rule for loops: what a step keeps when it has no result holds throughout. -/
theorem meets_iterate {step : β → Program Q A σ (α ⊕ β)} {I : β → σ → Prop}
    (hstep : ∀ b s, I b s → (step b s).Meets C fun result s' =>
      match result with
      | .inl a => P a s'
      | .inr b' => I b' s')
    (n : ℕ) {b : β} (hs : I b s) : (iterate step n b s).Meets C P := by
  induction n generalizing b s with
  | zero => trivial
  | succ n ih =>
    refine meets_bind.mpr ((hstep b s hs).mono fun result s' h => ?_)
    cases result with
    | inl a => exact h
    | inr b' => exact ih h

end Program

end Interaction
