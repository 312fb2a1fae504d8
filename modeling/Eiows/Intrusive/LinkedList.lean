import Mathlib.Data.List.Basic
import Mathlib.Data.List.Nodup
import Mathlib.Logic.Function.Basic

/-!
# Doubly linked lists of nodes

A list whose nodes hold the pointers to their neighbours. The pointers represent a
list of nodes; a node is linked at the front and unlinked wherever it is.
-/

namespace Intrusive

universe u

/-- The pointers of the nodes, and the first node. -/
structure Links (T : Type u) where
  head : Option T := none
  previous : T → Option T := fun _ => none
  next : T → Option T := fun _ => none

namespace Links

variable {T : Type u} {links : Links T} {t : T} {l : List T} {before current : Option T}

/-- From the node `current`, whose predecessor is `before`, the pointers run through a list. -/
def Chain (links : Links T) : Option T → Option T → List T → Prop
  | _, current, [] => current = none
  | before, current, t :: l =>
    current = some t ∧ links.previous t = before ∧ links.Chain (some t) (links.next t) l

/-- The pointers represent a list of different nodes. -/
structure Represents (links : Links T) (l : List T) : Prop where
  chain : links.Chain none links.head l
  nodup : l.Nodup
  outside : ∀ t, t ∉ l → links.previous t = none

/-- A chain depends on the pointers of its nodes only. -/
theorem Chain.congr {links' : Links T} (h : links.Chain before current l)
    (hprevious : ∀ t ∈ l, links'.previous t = links.previous t)
    (hnext : ∀ t ∈ l, links'.next t = links.next t) : links'.Chain before current l := by
  induction l generalizing before current with
  | nil => exact h
  | cons a l ih =>
    obtain ⟨hcurrent, hbefore, hrest⟩ := h
    refine ⟨hcurrent, ?_, ?_⟩
    · rw [hprevious a (List.mem_cons_self ..), hbefore]
    · rw [hnext a (List.mem_cons_self ..)]
      exact ih hrest (fun t ht => hprevious t (List.mem_cons_of_mem _ ht))
        fun t ht => hnext t (List.mem_cons_of_mem _ ht)

/-- The first node of a chain gets another predecessor. -/
theorem Chain.repoint {links' : Links T} {before' : Option T} (h : links.Chain before current l)
    (hnodup : l.Nodup) (hfirst : ∀ t, current = some t → links'.previous t = before')
    (hprevious : ∀ t ∈ l, current ≠ some t → links'.previous t = links.previous t)
    (hnext : ∀ t ∈ l, links'.next t = links.next t) : links'.Chain before' current l := by
  cases l with
  | nil => exact h
  | cons a l =>
    obtain ⟨hcurrent, hbefore, hrest⟩ := h
    obtain ⟨hfresh, -⟩ := List.nodup_cons.mp hnodup
    refine ⟨hcurrent, hfirst a hcurrent, ?_⟩
    rw [hnext a (List.mem_cons_self ..)]
    apply hrest.congr
    · intro t ht
      apply hprevious t (List.mem_cons_of_mem _ ht)
      rintro hat
      cases hcurrent.symm.trans hat
      exact hfresh ht
    · intro t ht
      exact hnext t (List.mem_cons_of_mem _ ht)

/-- The successor of a node is in the list. -/
theorem Chain.next_mem (h : links.Chain before current l) {a b : T} (ha : a ∈ l)
    (hb : links.next a = some b) : b ∈ l.tail := by
  induction l generalizing before current with
  | nil => cases ha
  | cons c l ih =>
    obtain ⟨-, -, hrest⟩ := h
    rcases List.mem_cons.mp ha with rfl | ha
    · cases l with
      | nil =>
        rw [hb] at hrest
        cases hrest
      | cons d l =>
        cases hb.symm.trans hrest.1
        exact List.mem_cons_self ..
    · exact List.mem_of_mem_tail (ih hrest ha)

/-- The first node of a chain is in the list. -/
theorem Chain.next_mem_of (h : links.Chain before current l) (ht : current = some t) : t ∈ l := by
  cases l with
  | nil => cases ht.symm.trans h
  | cons a l =>
    cases ht.symm.trans h.1
    exact List.mem_cons_self ..

/-- A node is the first of a chain, or its predecessor is in the list. -/
theorem Chain.previous_mem (h : links.Chain before current l) {a : T} (ha : a ∈ l) :
    (current = some a ∧ links.previous a = before) ∨
      ∃ b ∈ l, links.previous a = some b ∧ links.next b = some a := by
  induction l generalizing before current with
  | nil => cases ha
  | cons c l ih =>
    obtain ⟨hcurrent, hbefore, hrest⟩ := h
    rcases List.mem_cons.mp ha with rfl | ha
    · exact .inl ⟨hcurrent, hbefore⟩
    · rcases ih hrest ha with ⟨hnext, hprevious⟩ | ⟨b, hb, hlinked⟩
      · exact .inr ⟨c, List.mem_cons_self .., hprevious, hnext⟩
      · exact .inr ⟨b, List.mem_cons_of_mem _ hb, hlinked⟩

section Operations

variable [DecidableEq T]

/-- Put a node in front. -/
def pushFront (t : T) (links : Links T) : Links T where
  head := some t
  previous :=
    match links.head with
    | some first => Function.update links.previous first (some t)
    | none => links.previous
  next := Function.update links.next t links.head

/-- Take a node out. -/
def unlink (t : T) (links : Links T) : Links T where
  head :=
    match links.previous t with
    | some _ => links.head
    | none => links.next t
  previous := Function.update
    (match links.next t with
      | some after => Function.update links.previous after (links.previous t)
      | none => links.previous) t none
  next := Function.update
    (match links.previous t with
      | some before => Function.update links.next before (links.next t)
      | none => links.next) t none

end Operations

/-- A chain starts at the first node of its list. -/
theorem Chain.current_eq (h : links.Chain before current l) : current = l.head? := by
  cases l with
  | nil => exact h
  | cons a l => exact h.1

/-- The next pointer of a node leads to the node after it in the list. -/
theorem Chain.next_eq {done rest : List T} (h : links.Chain before current (done ++ t :: rest)) :
    links.next t = rest.head? := by
  induction done generalizing before current with
  | nil => exact h.2.2.current_eq
  | cons a done ih => exact ih h.2.2

theorem Represents.head_eq (h : links.Represents l) : links.head = l.head? :=
  h.chain.current_eq

theorem Represents.next_eq {done rest : List T} (h : links.Represents (done ++ t :: rest)) :
    links.next t = rest.head? :=
  h.chain.next_eq

theorem Represents.head_mem (h : links.Represents l) (ht : links.head = some t) : t ∈ l :=
  h.chain.next_mem_of ht

theorem Represents.previous_mem (h : links.Represents l) (ht : t ∈ l) {a : T}
    (ha : links.previous t = some a) : a ∈ l := by
  rcases h.chain.previous_mem ht with ⟨-, hprevious⟩ | ⟨b, hb, hprevious, -⟩
  · cases ha.symm.trans hprevious
  · cases ha.symm.trans hprevious
    exact hb

theorem Represents.next_mem (h : links.Represents l) (ht : t ∈ l) {a : T}
    (ha : links.next t = some a) : a ∈ l :=
  List.mem_of_mem_tail (h.chain.next_mem ht ha)

variable [DecidableEq T]

theorem Represents.pushFront (h : links.Represents l) (ht : t ∉ l) :
    (links.pushFront t).Represents (t :: l) := by
  have hprevious : ∀ a, links.head ≠ some a → (links.pushFront t).previous a = links.previous a := by
    intro a ha
    rw [Links.pushFront]
    cases hfirst : links.head with
    | none => rfl
    | some b =>
      have hne : a ≠ b := by
        rintro rfl
        exact ha hfirst
      simp only [Function.update_of_ne hne]
  have hnot : ∀ a, a ∉ l → links.head ≠ some a := fun a ha hhead => ha (h.head_mem hhead)
  refine ⟨⟨rfl, ?_, ?_⟩, List.nodup_cons.mpr ⟨ht, h.nodup⟩, ?_⟩
  · rw [hprevious t (hnot t ht), h.outside t ht]
  · have hnext : (links.pushFront t).next t = links.head := Function.update_self ..
    rw [hnext]
    apply h.chain.repoint h.nodup
    · intro a ha
      simp only [Links.pushFront, ha, Function.update_self]
    · intro a _ hhead
      exact hprevious a hhead
    · intro a ha
      have hne : a ≠ t := by
        rintro rfl
        exact ht ha
      exact Function.update_of_ne hne ..
  · intro a ha
    obtain ⟨-, ha⟩ := not_or.mp (mt List.mem_cons.mpr ha)
    rw [hprevious a (hnot a ha), h.outside a ha]

/-- The pointers of `unlink`, before those of the node itself are cleared. -/
theorem Chain.bypass {links' : Links T} (h : links.Chain before current l) (hnodup : l.Nodup)
    (ht : t ∈ l) (hbefore : ∀ a, before = some a → a ∉ l)
    (hprevious : ∀ a ∈ l, a ≠ t → links'.previous a =
      if links.next t = some a then links.previous t else links.previous a)
    (hnext : ∀ a ∈ l, a ≠ t → links'.next a =
      if links.previous t = some a then links.next t else links.next a) :
    links'.Chain before (if current = some t then links.next t else current) (l.erase t) := by
  induction l generalizing before current with
  | nil => cases ht
  | cons a l ih =>
    obtain ⟨hcurrent, hfirst, hrest⟩ := h
    obtain ⟨hfresh, hnodup'⟩ := List.nodup_cons.mp hnodup
    by_cases hat : a = t
    · subst hat
      rw [if_pos hcurrent, List.erase_cons_head]
      have hne : ∀ b ∈ l, b ≠ a := by
        rintro b hb rfl
        exact hfresh hb
      apply hrest.repoint hnodup'
      · intro b hb
        have hmem : b ∈ l := hrest.next_mem_of hb
        rw [hprevious b (List.mem_cons_of_mem _ hmem) (hne b hmem), if_pos hb, hfirst]
      · intro b hb hnext'
        rw [hprevious b (List.mem_cons_of_mem _ hb) (hne b hb), if_neg hnext']
      · intro b hb
        rw [hnext b (List.mem_cons_of_mem _ hb) (hne b hb), if_neg]
        intro hb'
        exact hbefore b (hfirst.symm.trans hb') (List.mem_cons_of_mem _ hb)
    · have hta : t ∈ l := (List.mem_cons.mp ht).resolve_left (Ne.symm hat)
      have hcurrent' : current ≠ some t := by
        intro h'
        exact hat (Option.some.inj (hcurrent.symm.trans h'))
      rw [if_neg hcurrent', List.erase_cons_tail (by simpa using hat)]
      have hlinked : links.previous t = some a ↔ links.next a = some t := by
        constructor
        · intro hprevious'
          rcases hrest.previous_mem hta with ⟨hnext', -⟩ | ⟨b, hb, hprevious'', -⟩
          · exact hnext'
          · cases hprevious'.symm.trans hprevious''
            exact absurd hb hfresh
        · intro hnext'
          cases l with
          | nil => cases hta
          | cons d l =>
            cases hnext'.symm.trans hrest.1
            exact hrest.2.1
      have hrest' := ih hrest hnodup' hta (by
          rintro b ⟨⟩
          exact hfresh)
        (fun b hb => hprevious b (List.mem_cons_of_mem _ hb))
        (fun b hb => hnext b (List.mem_cons_of_mem _ hb))
      refine ⟨hcurrent, ?_, ?_⟩
      · rw [hprevious a (List.mem_cons_self ..) hat, if_neg, hfirst]
        intro hnext'
        have hchain : links.Chain before current (a :: l) := ⟨hcurrent, hfirst, hrest⟩
        exact hfresh (hchain.next_mem ht hnext')
      · rw [hnext a (List.mem_cons_self ..) hat]
        simpa only [hlinked] using hrest'

theorem Represents.unlink (h : links.Represents l) (ht : t ∈ l) :
    (links.unlink t).Represents (l.erase t) := by
  have hhead : (links.unlink t).head =
      if links.head = some t then links.next t else links.head := by
    rcases h.chain.previous_mem ht with ⟨hfirst, hprevious⟩ | ⟨b, hb, hprevious, hnext⟩
    · simp only [Links.unlink, hprevious, if_pos hfirst]
    · rw [if_neg]
      · simp only [Links.unlink, hprevious]
      · intro hfirst
        cases l with
        | nil => cases hb
        | cons a l =>
          cases hfirst.symm.trans h.chain.1
          cases hprevious.symm.trans h.chain.2.1
  have hprevious : ∀ a, a ≠ t → (links.unlink t).previous a =
      if links.next t = some a then links.previous t else links.previous a := by
    intro a hat
    rw [Links.unlink]
    simp only [Function.update_of_ne hat]
    cases hnext : links.next t with
    | none => simp
    | some b =>
      by_cases hab : a = b
      · simp [hab]
      · simp [Function.update_of_ne hab, Ne.symm hab]
  refine ⟨?_, h.nodup.erase t, ?_⟩
  rw [hhead]
  apply h.chain.bypass h.nodup ht (by simp)
  · intro a _ hat
    exact hprevious a hat
  · intro a _ hat
    rw [Links.unlink]
    simp only [Function.update_of_ne hat]
    cases hprevious : links.previous t with
    | none => simp
    | some b =>
      by_cases hab : a = b
      · simp [hab]
      · simp [Function.update_of_ne hab, Ne.symm hab]
  · intro a ha
    by_cases hat : a = t
    · rw [hat]
      exact Function.update_self ..
    · have ha' : a ∉ l := fun hmem => ha ((List.mem_erase_of_ne hat).mpr hmem)
      rw [hprevious a hat, if_neg, h.outside a ha']
      exact fun hnext => ha' (h.next_mem ht hnext)

end Links

end Intrusive
