import Mathlib.Data.List.Basic
import Mathlib.Logic.Relation

/-!
# Incremental decoders

A decoder reads units from the front of a buffer. It may wait for more input,
but once it has recognised a unit, later input does not change what it read.
This file proves that such a decoder, fed through a pending buffer, sees only
the concatenation of its chunks. Nothing here depends on a particular format.
-/

namespace Streaming

universe u v w

/-- A decoder with state `σ` over the alphabet `α`. `next s xs` is the successor
state, the emitted events, and the number of consumed symbols of the first unit
of `xs`, or `none` while that unit is incomplete. -/
structure Decoder (σ : Type u) (α : Type v) (ε : Type w) where
  /-- Recognise one unit at the front of the buffer. -/
  next : σ → List α → Option (σ × List ε × ℕ)
  /-- A recognised unit is not empty. -/
  next_pos : ∀ {s xs t es n}, next s xs = some (t, es, n) → 0 < n
  /-- A recognised unit lies inside the buffer. -/
  next_le : ∀ {s xs t es n}, next s xs = some (t, es, n) → n ≤ xs.length
  /-- Later input does not change a recognised unit. -/
  next_append : ∀ {s xs r} (ys : List α), next s xs = some r → next s (xs ++ ys) = some r

namespace Decoder

variable {σ : Type u} {α : Type v} {ε : Type w} (d : Decoder σ α ε)

/-- Recognise units until the remaining buffer is incomplete. The result is the
final state, the unread remainder, and every emitted event. -/
def drain (s : σ) (xs : List α) : σ × List α × List ε :=
  match _h : d.next s xs with
  | none => (s, xs, [])
  | some (t, es, n) =>
    let r := drain t (xs.drop n)
    (r.1, r.2.1, es ++ r.2.2)
  termination_by xs.length
  decreasing_by
    have hpos := d.next_pos _h
    have hle := d.next_le _h
    simp only [List.length_drop]
    omega

/-- A buffer with an incomplete first unit is its own remainder. -/
theorem drain_of_next_none {s : σ} {xs : List α} (h : d.next s xs = none) :
    d.drain s xs = (s, xs, []) := by
  rw [drain]
  split
  · rfl
  · simp_all

/-- Draining a buffer with a complete first unit continues after that unit. -/
theorem drain_of_next {s t : σ} {xs : List α} {es : List ε} {n : ℕ}
    (h : d.next s xs = some (t, es, n)) :
    d.drain s xs = ((d.drain t (xs.drop n)).1, (d.drain t (xs.drop n)).2.1,
      es ++ (d.drain t (xs.drop n)).2.2) := by
  rw [drain]
  split
  · simp_all
  · rename_i t' es' n' h'
    obtain ⟨rfl, rfl, rfl⟩ : t' = t ∧ es' = es ∧ n' = n := by simp_all
    rfl

/-- The remainder of a drained buffer has no complete unit. -/
theorem next_drain (s : σ) (xs : List α) :
    d.next (d.drain s xs).1 (d.drain s xs).2.1 = none := by
  cases h : d.next s xs with
  | none => rw [d.drain_of_next_none h]; exact h
  | some r =>
    obtain ⟨t, es, n⟩ := r
    have hpos := d.next_pos h
    have hle := d.next_le h
    rw [d.drain_of_next h]
    exact next_drain t (xs.drop n)
  termination_by xs.length
  decreasing_by simp only [List.length_drop]; omega

/-- Draining a concatenation drains the first part, then what it left followed
by the second part. -/
theorem drain_append (s : σ) (xs ys : List α) :
    d.drain s (xs ++ ys) =
      ((d.drain (d.drain s xs).1 ((d.drain s xs).2.1 ++ ys)).1,
        (d.drain (d.drain s xs).1 ((d.drain s xs).2.1 ++ ys)).2.1,
        (d.drain s xs).2.2 ++ (d.drain (d.drain s xs).1 ((d.drain s xs).2.1 ++ ys)).2.2) := by
  cases h : d.next s xs with
  | none => simp [d.drain_of_next_none h]
  | some r =>
    obtain ⟨t, es, n⟩ := r
    have hpos := d.next_pos h
    have hle := d.next_le h
    have hrest := drain_append t (xs.drop n) ys
    have hdrop : (xs ++ ys).drop n = xs.drop n ++ ys := List.drop_append_of_le_length hle
    rw [d.drain_of_next (d.next_append ys h), d.drain_of_next h, hdrop, hrest]
    simp only [List.append_assoc]
  termination_by xs.length
  decreasing_by simp only [List.length_drop]; omega

/-- Draining `xs` from `s` comes to the state `t` with the buffer `ys` still to be read. -/
inductive Passes (s : σ) (xs : List α) : σ → List α → Prop
  | start : Passes s xs s xs
  | unit {t t' : σ} {ys : List α} {es : List ε} {n : ℕ} (earlier : Passes s xs t ys)
      (next : d.next t ys = some (t', es, n)) : Passes s xs t' (ys.drop n)

theorem Passes.trans {s t u : σ} {xs ys zs : List α} (h : d.Passes s xs t ys)
    (h' : d.Passes t ys u zs) : d.Passes s xs u zs := by
  induction h' with
  | start => exact h
  | unit _ hnext ih => exact .unit ih hnext

/-- Every event of draining is that of a unit. -/
theorem mem_drain {s : σ} {xs : List α} {e : ε} (he : e ∈ (d.drain s xs).2.2) :
    ∃ t ys t' es n, d.Passes s xs t ys ∧ d.next t ys = some (t', es, n) ∧ e ∈ es ∧
      es ⊆ (d.drain s xs).2.2 := by
  cases h : d.next s xs with
  | none =>
    rw [d.drain_of_next_none h] at he
    cases he
  | some r =>
    obtain ⟨t, es, n⟩ := r
    have hpos := d.next_pos h
    have hle := d.next_le h
    rw [d.drain_of_next h] at he ⊢
    rcases List.mem_append.mp he with hfirst | hrest
    · exact ⟨s, xs, t, es, n, .start, h, hfirst, List.subset_append_left _ _⟩
    · obtain ⟨u, ys, u', es', m, hpasses, hnext, hmem, hsub⟩ := mem_drain hrest
      exact ⟨u, ys, u', es', m, Passes.trans d (.unit .start h) hpasses, hnext, hmem,
        fun e he => List.mem_append_right _ (hsub he)⟩
  termination_by xs.length
  decreasing_by simp only [List.length_drop]; omega

/-- Feed one chunk to a decoder that keeps its unread remainder. -/
def feed (st : σ × List α) (chunk : List α) : (σ × List α) × List ε :=
  let r := d.drain st.1 (st.2 ++ chunk)
  ((r.1, r.2.1), r.2.2)

/-- Feed a list of chunks, collecting the events of every chunk. -/
def feedAll (st : σ × List α) : List (List α) → (σ × List α) × List ε
  | [] => (st, [])
  | chunk :: chunks =>
    let r := d.feed st chunk
    let rest := feedAll r.1 chunks
    (rest.1, r.2 ++ rest.2)

/-- A decoder state is settled when its unread remainder has no complete unit. -/
def Settled (st : σ × List α) : Prop := d.next st.1 st.2 = none

/-- Every fed state is settled. -/
theorem settled_feed (st : σ × List α) (chunk : List α) : d.Settled (d.feed st chunk).1 :=
  d.next_drain _ _

/-- A settled state fed chunk by chunk reads exactly the concatenation. -/
theorem feedAll_eq_feed_flatten {st : σ × List α} (hst : d.Settled st)
    (chunks : List (List α)) : d.feedAll st chunks = d.feed st chunks.flatten := by
  induction chunks generalizing st with
  | nil =>
    have hnext : d.next st.1 st.2 = none := hst
    simp [feedAll, feed, d.drain_of_next_none hnext]
  | cons chunk chunks ih =>
    rw [feedAll, ih (d.settled_feed st chunk)]
    simp only [feed, List.flatten_cons, ← List.append_assoc]
    rw [d.drain_append st.1 (st.2 ++ chunk) chunks.flatten]

end Decoder

/-- A machine that reads chunks, with its events collected over all of them. -/
def runChunks {κ : Type u} {α : Type v} {ε : Type w} (step : κ → List α → κ × List ε) (c : κ) :
    List (List α) → κ × List ε
  | [] => (c, [])
  | chunk :: chunks =>
    let r := step c chunk
    let rest := runChunks step r.1 chunks
    (rest.1, r.2 ++ rest.2)

/-- A machine that simulates a decoder on every admissible chunk simulates it
on every list of admissible chunks. -/
theorem runChunks_simulates {κ : Type u} {σ : Type u} {α : Type v} {ε : Type w}
    (d : Decoder σ α ε) {step : κ → List α → κ × List ε} {R : κ → σ × List α → Prop}
    {Admissible : List α → Prop}
    (hstep : ∀ c a chunk, Admissible chunk → R c a →
      R (step c chunk).1 (d.feed a chunk).1 ∧ (step c chunk).2 = (d.feed a chunk).2)
    {c : κ} {a : σ × List α} (hR : R c a) {chunks : List (List α)}
    (hchunks : ∀ chunk ∈ chunks, Admissible chunk) :
    R (runChunks step c chunks).1 (d.feedAll a chunks).1 ∧
      (runChunks step c chunks).2 = (d.feedAll a chunks).2 := by
  induction chunks generalizing c a with
  | nil => exact ⟨hR, rfl⟩
  | cons chunk chunks ih =>
    obtain ⟨hnext, hevents⟩ := hstep c a chunk (hchunks chunk (by simp)) hR
    obtain ⟨hfinal, hrest⟩ := ih hnext (fun x hx => hchunks x (by simp [hx]))
    exact ⟨hfinal, by simp only [runChunks, Decoder.feedAll, hevents, hrest]⟩

end Streaming
