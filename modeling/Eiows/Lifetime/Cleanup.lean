import Eiows.Lifetime.Methods

/-!
# The cleanup of the environment

The loop over the list of the environment deletes the transports whose poll handle is not
open, and leaves the others to their close callbacks. The last transport takes the
environment with it.
-/

namespace Eiows.Lifetime

open Intrusive

namespace Runtime

variable {S T : Type} [DecidableEq S] [DecidableEq T] {s : Runtime S T} {l rest : List T} {t : T}
  {o : TransportObject S}

/-- The invariant after the cleanup of the environment has begun. The loop of the cleanup
has still to visit the transports `rest`. -/
structure Cleaning (s : Runtime S T) (l rest : List T) : Prop extends s.Held l where
  begun : s.cleanupBegun = true
  idle : s.stack = []
  visited : ∀ t o, s.transports t = some o → (o.environmentCleaning = true ↔ t ∉ rest)
  environment :
    (l ≠ [] ∧ s.released = 0 ∧
      ∃ environment, s.environment = some environment ∧ environment.cleaning = true) ∨
    (l = [] ∧ s.released = 1 ∧ s.environment = none)

omit [DecidableEq S] in
theorem Cleaning.environment_ne (h : s.Cleaning l rest) (hl : l ≠ []) : s.environment ≠ none := by
  rcases h.environment with ⟨-, -, environment, henvironment, -⟩ | ⟨hnil, -⟩
  · rw [henvironment]
    exact Option.some_ne_none _
  · exact absurd hnil hl

omit [DecidableEq S] in
/-- The last transport takes the environment with it. -/
theorem Cleaning.finishEnvironmentCleanup (h : s.Cleaning l rest) (ho : s.transports t = some o)
    (ht : t ∉ rest) (hpoll : o.active = false ∨ o.poll = .closed) :
    (s.finishEnvironmentCleanup t).Cleaning (l.erase t) rest := by
  have hmem := (h.members t).mpr ⟨o, ho⟩
  have hl := List.ne_nil_of_mem hmem
  have hsound := h.sound t o ho
  have hstorage := hsound.requested (hsound.cleaning ((h.visited t o ho).mpr ht)).1
  have hremoved := h.toHeld.removed ho hstorage (by
    rw [h.idle]
    exact fun frame hframe => absurd hframe List.not_mem_nil)
  have hvisited : ∀ a oa, (s.removed t).transports a = some oa →
      (oa.environmentCleaning = true ↔ a ∉ rest) := by
    intro a oa ha
    by_cases hat : a = t
    · rw [hat, removed_self] at ha
      cases ha
    · rw [removed_of_ne hat] at ha
      exact h.visited a oa ha
  rw [h.finishEnvironmentCleanup_eq ho (h.environment_ne hl) hpoll]
  obtain ⟨hreleased, environment, henvironment, hcleaning⟩ : s.released = 0 ∧
      ∃ environment, s.environment = some environment ∧ environment.cleaning = true :=
    h.environment.elim And.right fun hnone => absurd hnone.1 hl
  have hhead := hremoved.represents.head_eq
  have hsame : (s.removed t).environment = some environment := henvironment
  rw [completeCleanup]
  simp only [hsame]
  split
  case isTrue hne =>
    refine ⟨hremoved, h.begun, h.idle, hvisited, .inl ⟨?_, hreleased, environment, hsame, hcleaning⟩⟩
    intro hnil
    rw [hnil] at hhead
    exact hne hhead
  case isFalse hnone =>
    rw [not_not, hhead, List.head?_eq_none_iff] at hnone
    exact ⟨{ hremoved with }, h.begun, h.idle, hvisited,
      .inr ⟨hnone, congrArg (· + 1) hreleased, rfl⟩⟩

/-- No handle refers to the transport any more. -/
def withoutHandle (t : T) (handles : S → Option (Option T)) : S → Option (Option T) :=
  fun session => if handles session = some (some t) then some none else handles session

/-- The fields of a transport that `beginEnvironmentCleanup` has closed. -/
def cleaned (o : TransportObject S) : TransportObject S :=
  let o := { o with environmentCleaning := true, destroyRequested := true, storage := none }
  if o.closing then o
  else if o.pollInitialized && o.poll = .opened then { o with closing := true, poll := .closing }
  else { o with closing := true, pollClosed := true }

/-- `beginEnvironmentCleanup` takes the transport from its session. -/
theorem Held.detachSession_eq (h : s.Held l) (ho : s.transports t = some o) {s₁ : Runtime S T}
    {o₁ : TransportObject S} (ho₁ : s₁.transports t = some o₁) (hhandles : s₁.handles = s.handles)
    (hstorage : o₁.storage = o.storage) :
    s₁.detachSession t =
      s₁.put t { o₁ with storage := none } (withoutHandle t s.handles) s₁.stack := by
  rw [detachSession, read_eq ho₁, hstorage]
  cases hold : o.storage with
  | none =>
    have hwithout : withoutHandle t s.handles = s₁.handles := by
      rw [hhandles]
      funext session
      rw [withoutHandle, if_neg]
      intro hhandle
      obtain ⟨o₂, ho₂, hstorage₂⟩ := (h.handles session t).mp hhandle
      cases ho.symm.trans ho₂
      cases hold.symm.trans hstorage₂
    have hsame : { o₁ with storage := none } = o₁ := by
      rw [← hold, ← hstorage]
    rw [hwithout, hsame]
    exact (put_same ho₁ _).symm
  | some session =>
    have hhandle : s.handles session = some (some t) := (h.handles session t).mpr ⟨o, ho, hold⟩
    have hwithout : Function.update s.handles session (some none) = withoutHandle t s.handles := by
      funext σ
      rw [withoutHandle]
      by_cases hσ : σ = session
      · subst hσ
        rw [Function.update_self, if_pos hhandle]
      · rw [Function.update_of_ne hσ, if_neg]
        intro hother
        obtain ⟨o₂, ho₂, hstorage₂⟩ := (h.handles σ t).mp hother
        cases ho.symm.trans ho₂
        exact hσ (Option.some.inj (hstorage₂.symm.trans hold))
    simp only [clearStorage, hhandles, hhandle, if_true, hwithout]
    exact assign_eq (s := { s₁ with handles := withoutHandle t s.handles }) ho₁ _

omit [DecidableEq S] in
/-- `closeNow`, when the environment is cleaned. -/
theorem closeNow_eq (ho : s.transports t = some o) (hcleaning : o.environmentCleaning = true) :
    s.closeNow t = s.put t (if o.closing then o
      else if o.pollInitialized && o.poll = .opened then { o with closing := true, poll := .closing }
      else { o with closing := true, pollClosed := true }) s.handles s.stack := by
  rw [Runtime.closeNow, read_eq ho]
  split
  case isTrue => exact (put_same ho _).symm
  case isFalse =>
    rw [assign_eq ho, if_neg (by simp [hcleaning]), Runtime.closePoll, assign_eq (put_self ..)]
    simp only [Runtime.put, Function.update_idem]

/-- What `beginEnvironmentCleanup` does. -/
theorem Held.beginEnvironmentCleanup_eq (h : s.Held l) (ho : s.transports t = some o) :
    s.beginEnvironmentCleanup t =
      if !(cleaned o).pollInitialized || (cleaned o).pollClosed then
        (s.put t (cleaned o) (withoutHandle t s.handles) s.stack).finishEnvironmentCleanup t
      else s.put t (cleaned o) (withoutHandle t s.handles) s.stack := by
  rw [beginEnvironmentCleanup, assign_eq ho]
  have hput := put_self (s := s) (t := t)
    (o := { o with environmentCleaning := true, destroyRequested := true }) s.handles s.stack
  rw [h.detachSession_eq ho hput rfl rfl, closeNow_eq (put_self ..) rfl, read_eq (put_self ..)]
  simp only [Runtime.put, Function.update_idem, cleaned]

omit [DecidableEq S] [DecidableEq T] in
/-- The fields of a closed transport are still sound. -/
theorem cleaned_sound (hsound : o.Sound) (hquiet : o.cancelling = false) : (cleaned o).Sound := by
  rw [cleaned]
  split_ifs with hclosing hopened
  · exact { hsound with
      running := fun _ hrunning => absurd (hrunning.symm.trans hclosing) (by decide)
      requested := fun _ => rfl
      cleaning := fun _ => ⟨rfl, fun hopened => by
        by_cases hactive : o.active = true
        · simp_all [TransportObject.cancelling]
        · cases hopened.symm.trans (hsound.idle (by simpa using hactive)).1⟩ }
  · simp only [Bool.and_eq_true, decide_eq_true_eq] at hopened
    have hactive := hsound.initialized.symm.trans hopened.1
    exact { hsound with
      idle := fun hidle => absurd (hidle.symm.trans hactive) (by decide)
      polled := fun _ => ⟨by simp, by simp [(hsound.polled hactive).2, hopened.2]⟩
      running := fun _ hrunning => absurd hrunning (by simp)
      requested := fun _ => rfl
      cleaning := fun _ => ⟨rfl, by simp⟩ }
  · have hidle : o.active = false := by
      by_contra hactive
      rw [Bool.not_eq_false] at hactive
      have hpoll := hsound.running hactive (by simpa using hclosing)
      exact hopened (by simp [hsound.initialized, hactive, hpoll])
    have hpoll := (hsound.idle hidle).1
    exact { hsound with
      idle := fun _ => ⟨hpoll, rfl⟩
      polled := fun hactive => absurd (hidle.symm.trans hactive) (by decide)
      running := fun _ hrunning => absurd hrunning (by simp)
      requested := fun _ => rfl
      cleaning := fun _ => ⟨rfl, by simp [hpoll]⟩ }

omit [DecidableEq S] [DecidableEq T] in
theorem cleaned_environmentCleaning : (cleaned o).environmentCleaning = true := by
  rw [cleaned]
  split_ifs <;> rfl

omit [DecidableEq S] [DecidableEq T] in
theorem cleaned_storage : (cleaned o).storage = none := by
  rw [cleaned]
  split_ifs <;> rfl

omit [DecidableEq S] [DecidableEq T] in
theorem cleaned_insideCloseCallback :
    (cleaned o).insideCloseCallback = o.insideCloseCallback := by
  rw [cleaned]
  split_ifs <;> rfl

/-- One turn of the loop: the transport is deleted, or waits for its close callback. -/
theorem Cleaning.beginEnvironmentCleanup {done : List T}
    (h : s.Cleaning (done ++ t :: rest) (t :: rest)) :
    ∃ done', (s.beginEnvironmentCleanup t).Cleaning (done' ++ rest) rest := by
  obtain ⟨o, ho⟩ := (h.members t).mp (by simp)
  obtain ⟨hquiet, hinside⟩ := h.quiet h.idle ho
  have hsound := cleaned_sound (h.sound t o ho) hquiet
  have hdeleted := hsound.cleaning cleaned_environmentCleaning
  have hfits : s.Fits t (cleaned o) (withoutHandle t s.handles) s.stack := by
    refine ⟨hsound, fun session => ?own, fun session a ha => ?others,
      fun frame hframe => ?entered, fun _ _ => rfl, ?cancelling, ?callbacks⟩
    case own =>
      rw [cleaned_storage, withoutHandle]
      split_ifs with hhandle <;> simp [hhandle]
    case others =>
      rw [withoutHandle]
      split_ifs with hhandle
      · simp [hhandle, eq_comm (a := t), ha]
      · rfl
    case entered =>
      rw [h.idle] at hframe
      cases hframe
    case cancelling => simp [h.idle, TransportObject.cancelling, hdeleted.2]
    case callbacks => simp [h.idle, cleaned_insideCloseCallback, hinside]
  have hnodup := h.represents.nodup
  have ht : t ∉ done ∧ t ∉ rest := by
    rw [List.nodup_middle, List.nodup_cons, List.mem_append, not_or] at hnodup
    exact hnodup.1
  have hput : (s.put t (cleaned o) (withoutHandle t s.handles) s.stack).Cleaning
      (done ++ t :: rest) rest := by
    refine ⟨h.toHeld.put ho hfits, h.begun, h.idle, fun a oa ha => ?_, h.environment⟩
    by_cases hat : a = t
    · subst hat
      rw [put_self, Option.some.injEq] at ha
      simp [← ha, cleaned_environmentCleaning, ht.2]
    · rw [put_of_ne hat] at ha
      simp [h.visited a oa ha, hat]
  rw [h.beginEnvironmentCleanup_eq ho]
  split
  case isFalse => exact ⟨done ++ [t], by simpa using hput⟩
  case isTrue hclosed =>
    rw [hsound.initialized] at hclosed
    refine ⟨done, ?_⟩
    have hpoll : (cleaned o).active = false ∨ (cleaned o).poll = .closed := by
      by_cases hactive : (cleaned o).active = true
      · refine .inr ((hsound.polled hactive).2.mp ?_)
        simpa [hactive] using hclosed
      · exact .inl (by simpa using hactive)
    have hfinish := hput.finishEnvironmentCleanup (put_self ..) ht.2 hpoll
    rwa [List.erase_append_right _ ht.1, List.erase_cons_head] at hfinish

/-- The loop visits every transport of the list. -/
theorem Cleaning.cleanupLoop {turns : ℕ} {done : List T} (h : s.Cleaning (done ++ rest) rest)
    (hturns : rest.length ≤ turns) :
    ∃ l', (Runtime.cleanupLoop turns rest.head? s).Cleaning l' [] := by
  induction rest generalizing s done turns with
  | nil =>
    refine ⟨done, ?_⟩
    rw [List.append_nil] at h
    cases turns <;> exact h
  | cons t rest ih =>
    obtain ⟨turns, rfl⟩ : ∃ n, turns = n + 1 := ⟨turns - 1, by simp at hturns; omega⟩
    obtain ⟨o, ho⟩ := (h.members t).mp (by simp)
    obtain ⟨done', hnext⟩ := h.beginEnvironmentCleanup
    rw [List.head?_cons, Runtime.cleanupLoop, read_eq ho, h.represents.next_eq]
    exact ih hnext (by simpa using hturns)

/-- `cleanupNativeEnvironment`. -/
theorem Open.cleanup (h : s.Open l) (hstack : s.stack = []) :
    ∃ l', s.cleanupNativeEnvironment.Cleaning l' [] := by
  obtain ⟨environment, henvironment, hcleaning⟩ := h.environment
  have hhead := h.represents.head_eq
  rw [cleanupNativeEnvironment]
  simp only [henvironment]
  cases l with
  | nil =>
    simp only [hhead, List.head?_nil, completeCleanup, ne_eq, not_true_eq_false, if_false]
    refine ⟨[], { h with }, rfl, hstack, fun a oa ha => ?_,
      .inr ⟨rfl, congrArg (· + 1) h.notReleased, rfl⟩⟩
    exact absurd ((h.members a).mpr ⟨oa, ha⟩) List.not_mem_nil
  | cons t l =>
    simp only [hhead, List.head?_cons]
    have hstart : Cleaning
        { s with environment := some { environment with cleaning := true }, cleanupBegun := true }
        ([] ++ t :: l) (t :: l) := by
      refine ⟨{ h with }, rfl, hstack, fun a oa ha => ?_,
        .inl ⟨List.cons_ne_nil t l, h.notReleased, _, rfl, rfl⟩⟩
      have hmem := (h.members a).mpr ⟨oa, ha⟩
      simp only [h.notCleaning a oa ha, hmem, not_true_eq_false, Bool.false_eq_true]
    have hcard : (t :: l).length ≤ s.created.card := by
      rw [← List.toFinset_card_of_nodup h.represents.nodup]
      exact Finset.card_le_card fun a ha => h.created a (List.mem_toFinset.mp ha)
    exact hstart.cleanupLoop hcard

omit [DecidableEq S] in
/-- `onPollClosed`, of a transport that the cleanup has closed. -/
theorem Cleaning.onPollClosed (h : s.Cleaning l []) (hpoll : s.pollOf t = .closing) :
    (s.onPollClosed t).Cleaning (l.erase t) [] := by
  obtain ⟨o, ho⟩ := exists_of_pollOf hpoll (by decide)
  rw [pollOf, ho, Option.elim_some] at hpoll
  have hcleaning := (h.visited t o ho).mpr List.not_mem_nil
  have hfits := h.fitsClosed ho h.idle hpoll
  have hput : (s.put t { o with poll := .closed, pollClosed := true } s.handles s.stack).Cleaning
      l [] := by
    refine ⟨h.toHeld.put ho hfits, h.begun, h.idle, fun a oa ha => ?_, h.environment⟩
    by_cases hat : a = t
    · subst hat
      rw [put_self, Option.some.injEq] at ha
      simp [← ha, hcleaning]
    · rw [put_of_ne hat] at ha
      exact h.visited a oa ha
  rw [Runtime.onPollClosed, assign_eq ho, read_eq (put_self ..), if_pos hcleaning]
  exact hput.finishEnvironmentCleanup (put_self ..) List.not_mem_nil (.inr rfl)

/-- After the cleanup has begun, only close callbacks are left. -/
theorem Cleaning.next (h : s.Cleaning l []) {event : Event S T} {s' : Runtime S T}
    (hnext : s.next event = some s') : ∃ l', s'.Cleaning l' [] := by
  have hhandles : ∀ session t, s.handles session ≠ some (some t) := by
    intro session t hhandle
    obtain ⟨o, ho, hstorage⟩ := (h.handles session t).mp hhandle
    have hsound := h.sound t o ho
    have hrequested := hsound.cleaning ((h.visited t o ho).mpr List.not_mem_nil)
    cases hstorage.symm.trans (hsound.requested hrequested.1)
  cases event with
  | attach session t valid =>
    simp only [Runtime.next] at hnext
    split_ifs at hnext
    rcases h.environment with ⟨-, -, environment, henvironment, hcleaning⟩ | ⟨-, -, hnone⟩
    · simp only [henvironment, hcleaning, if_true, Option.some.injEq] at hnext
      exact ⟨l, hnext ▸ h⟩
    · simp only [hnone, Option.some.injEq] at hnext
      exact ⟨l, hnext ▸ h⟩
  | activate session initialized =>
    simp only [Runtime.next] at hnext
    split at hnext <;> cases hnext
    case h_2 => exact ⟨l, h⟩
    case h_3 t hhandle => exact absurd hhandle (hhandles session t)
  | terminate session =>
    simp only [Runtime.next] at hnext
    split at hnext <;> cases hnext
    case h_2 => exact ⟨l, h⟩
    case h_3 t hhandle => exact absurd hhandle (hhandles session t)
  | dispose session =>
    simp only [Runtime.next] at hnext
    split at hnext <;> cases hnext
    case h_2 => exact ⟨l, h⟩
    case h_3 t hhandle => exact absurd hhandle (hhandles session t)
  | finalize session =>
    simp only [Runtime.next] at hnext
    split at hnext
    case h_1 => cases hnext
    case h_2 transport hhandle =>
      cases transport with
      | some t => exact absurd hhandle (hhandles session t)
      | none =>
        cases hnext
        exact ⟨l, { h with toHeld := h.toHeld.finalize hhandle }⟩
  | operate session =>
    simp only [Runtime.next] at hnext
    split at hnext
    case h_1 => cases hnext
    case h_2 =>
      cases hnext
      exact ⟨l, h⟩
    case h_3 t hhandle => exact absurd hhandle (hhandles session t)
  | poll t =>
    simp only [Runtime.next] at hnext
    split_ifs at hnext with hguard
    obtain ⟨o, ho⟩ := exists_of_pollOf hguard.2 (by decide)
    rw [pollOf, ho, Option.elim_some] at hguard
    exact absurd hguard.2 ((h.sound t o ho).cleaning ((h.visited t o ho).mpr List.not_mem_nil)).2
  | close => simp [Runtime.next, h.idle] at hnext
  | resume => simp [Runtime.next, h.idle] at hnext
  | pollClosed t =>
    simp only [Runtime.next] at hnext
    split_ifs at hnext with hguard
    cases hnext
    exact ⟨_, h.onPollClosed hguard.2⟩
  | cleanup => simp [Runtime.next, h.begun] at hnext

/-- Every reachable state keeps one of the two invariants. -/
theorem Reaches.held (h : s.Reaches) : ∃ l, s.Open l ∨ s.Cleaning l [] := by
  refine h.invariant (P := fun s : Runtime S T => ∃ l, s.Open l ∨ s.Cleaning l []) ?_ ?_
  · rintro s rfl
    refine ⟨[], .inl ⟨⟨rfl, ⟨rfl, List.nodup_nil, fun _ _ => rfl⟩, ?_, ?_, ?_, ?_, ?_, ?_, ?_, ?_⟩,
      rfl, ⟨_, rfl, rfl⟩, rfl, ?_⟩⟩ <;> simp [isCancelling, isInsideCloseCallback]
  · rintro s event s' ⟨l, hopen | hcleaning⟩ hnext
    · by_cases hevent : event = .cleanup
      · subst hevent
        simp only [Runtime.next] at hnext
        split_ifs at hnext with hguard
        cases hnext
        obtain ⟨l', hl'⟩ := hopen.cleanup hguard.1
        exact ⟨l', .inr hl'⟩
      · obtain ⟨l', hl'⟩ := hopen.next hnext hevent
        exact ⟨l', .inl hl'⟩
    · obtain ⟨l', hl'⟩ := hcleaning.next hnext
      exact ⟨l', .inr hl'⟩

end Runtime

/-- What is promised about the lifetime of the transports and of their environment. -/
structure Owned {S T : Type} (s : Runtime S T) : Prop where
  /-- No deleted transport or environment has been used, and no transport has been deleted
  while libuv had its poll handle. -/
  noFault : s.fault = false
  deletedOnce : ∀ t, s.deletions t ≤ 1
  gone : ∀ t, s.deletions t = 1 → s.transports t = none
  /-- A session refers only to a transport that is alive and that refers to the session. -/
  storage : ∀ session t, s.handles session = some (some t) →
    ∃ o, s.transports t = some o ∧ o.storage = some session
  /-- The list of the environment holds the live registered transports. -/
  list : ∃ l, s.links.Represents l ∧
    ∀ t, t ∈ l ↔ ∃ o, s.transports t = some o ∧ o.environmentRegistered = true
  releasedOnce : s.released ≤ 1
  /-- The environment is released when the cleanup has begun and the last transport is gone. -/
  released : s.released = 1 ↔ s.cleanupBegun = true ∧ ∀ t, s.transports t = none

/-- In every run the transports and the environment are deleted once, and not used after. -/
theorem transports_owned {S T : Type} [DecidableEq S] [DecidableEq T] {s : Runtime S T}
    (h : s.Reaches) : Owned s := by
  obtain ⟨l, hl⟩ := h.held
  have hheld : s.Held l := hl.elim Runtime.Open.toHeld Runtime.Cleaning.toHeld
  have hempty : (∀ t, s.transports t = none) ↔ l = [] := by
    rw [List.eq_nil_iff_forall_not_mem]
    refine forall_congr' fun t => ?_
    rw [hheld.members, not_exists, Option.eq_none_iff_forall_ne_some]
  refine {
    noFault := hheld.noFault
    deletedOnce := fun t => (hheld.deletions t).1
    gone := fun t ht => ?gone
    storage := fun session t => (hheld.handles session t).mp
    list := ⟨l, hheld.represents, fun t => ?list⟩
    releasedOnce := ?once
    released := ?released }
  case gone =>
    cases ho : s.transports t with
    | none => rfl
    | some o => exact absurd ((hheld.deletions t).2 (.inr ⟨o, ho⟩)) (by omega)
  case list =>
    rw [hheld.members t]
    constructor
    · rintro ⟨o, ho⟩
      exact ⟨o, ho, (hheld.sound t o ho).registered⟩
    · rintro ⟨o, ho, -⟩
      exact ⟨o, ho⟩
  case once =>
    rcases hl with hopen | hcleaning
    · have := hopen.notReleased
      omega
    · rcases hcleaning.environment with ⟨-, hreleased, -⟩ | ⟨-, hreleased, -⟩ <;> omega
  case released =>
    rw [hempty]
    rcases hl with hopen | hcleaning
    · simp [hopen.notReleased, hopen.notBegun]
    · rw [hcleaning.begun]
      rcases hcleaning.environment with ⟨hl, hreleased, -⟩ | ⟨hl, hreleased, -⟩
      · simp [hl, hreleased]
      · simp [hl, hreleased]

/-- The cleanup deletes an idle transport at once and an active one in its close callback. -/
theorem transports_owned_cleanup : ∃ s : Runtime Bool Bool,
    Transition.run Runtime.next {} [.attach false false true, .attach true true true,
      .activate false true, .resume, .terminate false, .resume, .cleanup, .pollClosed false] =
      some s ∧ Owned s ∧ s.released = 1 ∧ s.deletions false = 1 ∧ s.deletions true = 1 := by
  have hends : ((Transition.run Runtime.next ({} : Runtime Bool Bool) [.attach false false true,
      .attach true true true, .activate false true, .resume, .terminate false, .resume, .cleanup,
      .pollClosed false]).map fun s => (s.released, s.deletions false, s.deletions true)) =
      some (1, 1, 1) := by decide
  obtain ⟨s, hs, hcounts⟩ := Option.map_eq_some_iff.mp hends
  simp only [Prod.mk.injEq] at hcounts
  have hreaches : s.Reaches :=
    Transition.Reachable.run (fun _ _ _ => id) (.start rfl) hs
  exact ⟨s, hs, transports_owned hreaches, hcounts⟩

end Eiows.Lifetime
