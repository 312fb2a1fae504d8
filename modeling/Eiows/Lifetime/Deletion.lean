import Eiows.Lifetime.Ownership

/-!
# Deleting a transport

What the methods of a transport do while the invariant holds. Until the cleanup of the
environment begins, each of them updates one transport, or deletes it.
-/

namespace Eiows.Lifetime

open Intrusive

namespace Runtime

variable {S T : Type} [DecidableEq S] [DecidableEq T] {s : Runtime S T} {l : List T} {t : T}
  {o o' : TransportObject S}

section Access

omit [DecidableEq S]

omit [DecidableEq T] in
theorem read_eq (ho : s.transports t = some o) (k : TransportObject S → Runtime S T) :
    s.read t k = k o := by
  rw [read, ho]

theorem assign_eq (ho : s.transports t = some o) (f : TransportObject S → TransportObject S) :
    s.assign t f = s.put t (f o) s.handles s.stack := by
  rw [assign, read_eq ho, put]

/-- An update that keeps the fields changes the stack only. -/
theorem put_same (ho : s.transports t = some o) (stack : List (Frame T)) :
    s.put t o s.handles stack = { s with stack } := by
  rw [put, ← ho, Function.update_eq_self]

omit [DecidableEq T] in
theorem touch_eq {a : Option T} (h : ∀ t, a = some t → ∃ o, s.transports t = some o) :
    s.touch a = s := by
  cases a with
  | none => rfl
  | some t =>
    obtain ⟨o, ho⟩ := h t rfl
    exact read_eq ho _

omit [DecidableEq T] in
theorem touchEnvironment_eq (h : s.environment ≠ none) : s.touchEnvironment = s := by
  rw [touchEnvironment]
  split
  case h_1 hnone => exact absurd hnone h
  case h_2 => rfl

/-- A transport of the list is unlinked without a fault. -/
theorem Held.unlinkEnvironment_eq (h : s.Held l) (ho : s.transports t = some o)
    (henvironment : s.environment ≠ none) :
    s.unlinkEnvironment t =
      { s with links := s.links.unlink t }.put t { o with environmentRegistered := false }
        s.handles s.stack := by
  have ht := (h.members t).mpr ⟨o, ho⟩
  have hsound := h.sound t o ho
  have hprevious : s.touch (s.links.previous t) = s :=
    touch_eq fun a ha => (h.members a).mp (h.represents.previous_mem ht ha)
  have hnext : s.touch (s.links.next t) = s :=
    touch_eq fun a ha => (h.members a).mp (h.represents.next_mem ht ha)
  rw [unlinkEnvironment, read_eq ho, if_neg (by simp [hsound.registered, hsound.environment])]
  simp only [touchEnvironment_eq henvironment, hprevious, hnext]
  exact assign_eq (s := { s with links := s.links.unlink t }) ho _

/-- A transport that is not in the list is deleted without a fault, if libuv does not have
its poll handle. -/
theorem delete_unlinked (ho : s.transports t = some o)
    (hregistered : o.environmentRegistered = false)
    (hpoll : o.pollInitialized = false ∨ o.poll = .closed) :
    s.delete t =
      { s with
        transports := Function.update s.transports t none
        deletions := Function.update s.deletions t (s.deletions t + 1) } := by
  have hunlink : s.unlinkEnvironment t = s := by
    rw [unlinkEnvironment, read_eq ho, if_pos (by simp [hregistered])]
  rw [delete, hunlink]
  dsimp only
  rw [read_eq ho, if_neg]
  rcases hpoll with hidle | hclosed
  · simp [hidle]
  · simp [hclosed]

/-- A transport whose poll handle is closed, or was never opened, is deleted without a fault. -/
theorem Held.delete_eq (h : s.Held l) (ho : s.transports t = some o)
    (henvironment : s.environment ≠ none) (hpoll : o.active = false ∨ o.poll = .closed) :
    s.delete t = s.removed t := by
  have hinitialized := (h.sound t o ho).initialized
  rw [delete, h.unlinkEnvironment_eq ho henvironment]
  dsimp only
  rw [read_eq (put_self ..), if_neg]
  · rw [Runtime.put, Runtime.removed, Function.update_idem]
  · rintro hopen
    simp only [hinitialized, Bool.and_eq_true, decide_eq_true_eq] at hopen
    rcases hpoll with hidle | hclosed
    · exact absurd (hidle.symm.trans hopen.1) (by decide)
    · exact hopen.2 hclosed

/-- `finishEnvironmentCleanup` deletes the transport, and then the environment if this was
the last one. -/
theorem Held.finishEnvironmentCleanup_eq (h : s.Held l) (ho : s.transports t = some o)
    (henvironment : s.environment ≠ none) (hpoll : o.active = false ∨ o.poll = .closed) :
    s.finishEnvironmentCleanup t = (s.removed t).completeCleanup := by
  have hsound := h.sound t o ho
  rw [← hsound.initialized] at hpoll
  rw [finishEnvironmentCleanup, read_eq ho, if_pos hsound.environment,
    h.unlinkEnvironment_eq ho henvironment, assign_eq (put_self ..),
    delete_unlinked (o := { o with environmentRegistered := false, environment := false })
      (put_self ..) rfl hpoll]
  simp only [Runtime.put, Runtime.removed, Function.update_idem]

end Access

section Fitting

omit [DecidableEq S]

/-- A method on the stack belongs to a transport that is in use. -/
theorem Held.entered (h : s.Held l) (ho : s.transports t = some o) {frame : Frame T}
    (hframe : frame ∈ s.stack) (ht : frame.transport = t) : o.Entered frame := by
  obtain ⟨o₁, ho₁, hentered⟩ := h.frames frame hframe
  rw [ht, ho] at ho₁
  cases ho₁
  exact hentered

/-- An update of the fields that decide nothing for the handles and the stack. -/
theorem Held.fits (h : s.Held l) (ho : s.transports t = some o) (hsound : o'.Sound)
    (hstorage : o'.storage = o.storage)
    (hentered : ∀ frame ∈ s.stack, frame.transport = t → o'.Entered frame)
    (hcancelling : o'.cancelling = o.cancelling)
    (hinside : o'.insideCloseCallback = o.insideCloseCallback) :
    s.Fits t o' s.handles s.stack where
  sound := hsound
  own session := by
    rw [h.handles, ho, hstorage]
    simp only [Option.some.injEq, exists_eq_left']
  others _ _ _ := Iff.rfl
  entered := hentered
  frames _ _ := rfl
  cancelling := by
    rw [h.cancelling, isCancelling, ho, hcancelling, Option.elim_some]
  callbacks := by
    rw [h.callbacks, isInsideCloseCallback, ho, hinside, Option.elim_some]

/-- A method is called. -/
theorem Fits.push {handles : S → Option (Option T)} {stack : List (Frame T)}
    (hfits : s.Fits t o handles stack) {frame : Frame T} (hframe : frame.transport = t)
    (hentered : o.Entered frame) (hcancelling : frame ≠ .cancelWrites t)
    (hcallback : frame ≠ .closeCallback t) : s.Fits t o handles (frame :: stack) :=
  { hfits with
    entered := fun a ha hat => by
      rcases List.mem_cons.mp ha with rfl | ha
      · exact hentered
      · exact hfits.entered a ha hat
    frames := fun a ha => by
      rw [List.count_cons_of_ne, hfits.frames a ha]
      rintro rfl
      exact ha hframe
    cancelling := by rw [List.count_cons_of_ne hcancelling, hfits.cancelling]
    callbacks := by rw [List.count_cons_of_ne hcallback, hfits.callbacks] }

/-- A method returns. -/
theorem Fits.pop {handles : S → Option (Option T)} {stack : List (Frame T)} {frame : Frame T}
    (hfits : s.Fits t o handles (frame :: stack)) (hframe : frame.transport = t)
    (hcancelling : frame ≠ .cancelWrites t) (hcallback : frame ≠ .closeCallback t) :
    s.Fits t o handles stack :=
  { hfits with
    entered := fun a ha => hfits.entered a (List.mem_cons_of_mem _ ha)
    frames := fun a ha => by
      rw [← hfits.frames a ha, List.count_cons_of_ne]
      rintro rfl
      exact ha hframe
    cancelling := by rw [← hfits.cancelling, List.count_cons_of_ne hcancelling]
    callbacks := by rw [← hfits.callbacks, List.count_cons_of_ne hcallback] }

end Fitting

/-- The invariant, before the cleanup of the environment has begun. -/
structure Open (s : Runtime S T) (l : List T) : Prop extends s.Held l where
  notBegun : s.cleanupBegun = false
  environment : ∃ environment, s.environment = some environment ∧ environment.cleaning = false
  notReleased : s.released = 0
  notCleaning : ∀ t o, s.transports t = some o → o.environmentCleaning = false

section Open

omit [DecidableEq S]

theorem Open.environment_ne (h : s.Open l) : s.environment ≠ none := by
  obtain ⟨environment, henvironment, -⟩ := h.environment
  rw [henvironment]
  exact Option.some_ne_none _

theorem Open.put (h : s.Open l) {handles : S → Option (Option T)} (stack : List (Frame T))
    (ho : s.transports t = some o) (hfits : s.Fits t o' handles stack)
    (hcleaning : o'.environmentCleaning = false) : (s.put t o' handles stack).Open l where
  toHeld := h.toHeld.put ho hfits
  notBegun := h.notBegun
  environment := h.environment
  notReleased := h.notReleased
  notCleaning a oa ha := by
    by_cases hat : a = t
    · rw [hat, put_self, Option.some.injEq] at ha
      exact ha ▸ hcleaning
    · rw [put_of_ne hat] at ha
      exact h.notCleaning a oa ha

theorem Open.delete (h : s.Open l) (ho : s.transports t = some o) (hstorage : o.storage = none)
    (hpoll : o.active = false ∨ (o.poll = .closed ∧ o.insideCloseCallback = false)) :
    (s.delete t).Open (l.erase t) := by
  rw [h.delete_eq ho h.environment_ne (hpoll.imp_right And.left)]
  exact {
    toHeld := h.toHeld.removed ho hstorage (h.alone ho hpoll)
    notBegun := h.notBegun
    environment := h.environment
    notReleased := h.notReleased
    notCleaning := fun a oa ha => by
      by_cases hat : a = t
      · rw [hat, removed_self] at ha
        cases ha
      · rw [removed_of_ne hat] at ha
        exact h.notCleaning a oa ha }

/-- A method is called or goes on. -/
theorem Open.enter (h : s.Open l) (ho : s.transports t = some o) (hactive : o.active = true)
    (hclosing : o.closing = false) (frame : Frame T) (hframe : frame.transport = t)
    (hcancelling : frame ≠ .cancelWrites t) (hcallback : frame ≠ .closeCallback t) :
    { s with stack := frame :: s.stack }.Open l := by
  have hsound := h.sound t o ho
  have hopened := hsound.running hactive hclosing
  have hfits : s.Fits t o s.handles s.stack :=
    h.fits ho hsound rfl (fun _ => h.entered ho) rfl rfl
  rw [← put_same ho]
  refine h.put _ ho (hfits.push hframe ⟨hactive, h.notCleaning t o ho, ?_⟩ hcancelling
    hcallback) (h.notCleaning t o ho)
  refine iff_of_false ?_ (by simp [hopened])
  rintro ⟨a, rfl⟩
  exact hcallback (congrArg Frame.closeCallback hframe)

/-- A method returns. -/
theorem Open.leave (h : s.Open l) {frame : Frame T} {stack : List (Frame T)}
    (hstack : s.stack = frame :: stack) (hcancelling : frame ≠ .cancelWrites frame.transport)
    (hcallback : frame ≠ .closeCallback frame.transport) : { s with stack }.Open l := by
  obtain ⟨o, ho, -⟩ := h.frames frame (hstack ▸ List.mem_cons_self ..)
  have hfits : s.Fits frame.transport o s.handles (frame :: stack) := by
    rw [← hstack]
    exact h.fits ho (h.sound _ o ho) rfl (fun _ => h.entered ho) rfl rfl
  rw [← put_same ho]
  exact h.put _ ho (hfits.pop rfl hcancelling hcallback) (h.notCleaning _ o ho)

/-- `closeNow`, from `uv_poll_stop` on. -/
theorem Open.closePoll (h : s.Open l) {stack : List (Frame T)}
    (hstack : s.stack = .cancelWrites t :: stack) : ({ s with stack }.closePoll t).Open l := by
  obtain ⟨o, ho, hentered⟩ := h.frames (.cancelWrites t) (hstack ▸ List.mem_cons_self ..)
  simp only [Frame.transport] at ho
  have hsound := h.sound t o ho
  have hactive := hentered.active
  have hcancelling : o.cancelling = true ∧ stack.count (.cancelWrites t) = 0 := by
    have hcount := h.cancelling t
    rw [hstack, List.count_cons_self, isCancelling, ho, Option.elim_some] at hcount
    cases hb : o.cancelling with
    | false =>
      rw [hb, Bool.toNat_false] at hcount
      omega
    | true =>
      rw [hb, Bool.toNat_true] at hcount
      exact ⟨rfl, by omega⟩
  have hflags := hcancelling.1
  simp only [TransportObject.cancelling, Bool.and_eq_true, decide_eq_true_eq] at hflags
  rw [Runtime.closePoll, assign_eq (s := { s with stack }) ho,
    if_pos (by simp [hsound.initialized, hactive, hflags.2])]
  refine h.put _ ho ?_ (h.notCleaning t o ho)
  constructor
  · exact {
      hsound with
      idle := fun hidle => absurd (hidle.symm.trans hactive) (by decide)
      polled := fun _ => ⟨by simp, by
        rw [(hsound.polled hactive).2, hflags.2]
        simp⟩
      running := fun _ hrunning => absurd (hrunning.symm.trans hflags.1.2) (by decide)
      cleaning := fun hcleaning =>
        absurd (hcleaning.symm.trans hentered.cleaning) (by decide) }
  · intro session
    rw [h.handles, ho]
    simp only [Option.some.injEq, exists_eq_left']
  · exact fun _ _ _ => Iff.rfl
  · intro frame hframe hat
    have hold := h.entered ho (hstack ▸ List.mem_cons_of_mem _ hframe) hat
    have hnot := mt hold.poll.mp (by simp [hflags.2])
    exact ⟨hactive, hold.cleaning, iff_of_false hnot (by simp)⟩
  · intro frame hat
    rw [hstack, List.count_cons_of_ne]
    rintro rfl
    exact hat rfl
  · rw [hcancelling.2]
    simp [TransportObject.cancelling]
  · have hcount := h.callbacks t
    rw [hstack, List.count_cons_of_ne (by simp), isInsideCloseCallback, ho] at hcount
    exact hcount

/-- `closeNow`. -/
theorem Open.closeNow (h : s.Open l) (ho : s.transports t = some o) : (s.closeNow t).Open l := by
  have hsound := h.sound t o ho
  rw [Runtime.closeNow, read_eq ho]
  split
  case isTrue => exact h
  case isFalse hclosing =>
  have hclosing : o.closing = false := by simpa using hclosing
  rw [assign_eq ho]
  by_cases hactive : o.active = true
  · have hopened := hsound.running hactive hclosing
    rw [if_pos (by simp [h.notCleaning t o ho, hactive])]
    refine h.put (.cancelWrites t :: s.stack) ho ?_ (h.notCleaning t o ho)
    constructor
    · exact { hsound with
        idle := fun hidle => absurd (hidle.symm.trans hactive) (by decide)
        running := fun _ hrunning => absurd hrunning (by simp) }
    · intro session
      refine (h.handles session t).trans ?_
      rw [ho]
      simp only [Option.some.injEq, exists_eq_left']
    · exact fun _ _ _ => Iff.rfl
    · intro frame hframe hat
      refine ⟨hactive, h.notCleaning t o ho, ?_⟩
      rcases List.mem_cons.mp hframe with rfl | hframe
      · simp [hopened]
      · exact (h.entered ho hframe hat).poll
    · intro frame hat
      rw [List.count_cons_of_ne]
      rintro rfl
      exact hat rfl
    · rw [List.count_cons_self, h.cancelling, isCancelling, ho]
      simp [TransportObject.cancelling, hclosing, hactive, hopened]
    · rw [List.count_cons_of_ne (by simp), h.callbacks, isInsideCloseCallback, ho]
      rfl
  · rw [Bool.not_eq_true] at hactive
    obtain ⟨hpoll, hpollClosed⟩ := hsound.idle hactive
    rw [if_neg (by simp [hactive]), Runtime.closePoll, assign_eq (put_self ..),
      if_neg (by simp [hsound.initialized, hactive])]
    have halone := h.alone ho (.inl hactive)
    have hfits : s.Fits t { o with closing := true, pollClosed := true } s.handles s.stack := by
      refine h.fits ho ?_ rfl (fun a ha hat => absurd hat (halone a ha)) ?_ rfl
      · exact { hsound with
          idle := fun _ => ⟨hpoll, rfl⟩
          polled := fun hfalse => absurd (hactive.symm.trans hfalse) (by decide)
          running := fun hfalse => absurd (hactive.symm.trans hfalse) (by decide) }
      · simp [TransportObject.cancelling, hactive]
    have hput := h.put _ ho hfits (h.notCleaning t o ho)
    simpa only [Runtime.put, Function.update_idem] using hput

end Open

end Runtime

end Eiows.Lifetime
