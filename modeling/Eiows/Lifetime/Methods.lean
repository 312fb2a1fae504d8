import Eiows.Lifetime.Deletion

/-!
# The calls of JavaScript and of libuv

Until the cleanup of the environment begins, every event keeps the invariant.
-/

namespace Eiows.Lifetime

open Intrusive

namespace Runtime

variable {S T : Type} [DecidableEq S] [DecidableEq T] {s : Runtime S T} {l : List T} {t : T}
  {o : TransportObject S} {session : S}

omit [DecidableEq S] in
/-- A transport that was never allocated has no memory. -/
theorem Held.fresh (h : s.Held l) (ht : t ∉ s.created) : t ∉ l ∧ s.transports t = none := by
  have hl : t ∉ l := fun hmem => ht (h.created t hmem)
  refine ⟨hl, ?_⟩
  cases ho : s.transports t with
  | none => rfl
  | some o => exact absurd ((h.members t).mpr ⟨o, ho⟩) hl

omit [DecidableEq S] in
/-- A transport is linked without a fault. -/
theorem linkEnvironment_eq (ho : s.transports t = some o) (hregistered : o.environment = true)
    (henvironment : s.environment ≠ none)
    (hhead : ∀ a, s.links.head = some a → ∃ o, s.transports a = some o) :
    s.linkEnvironment t =
      { s with links := s.links.pushFront t }.put t { o with environmentRegistered := true }
        s.handles s.stack := by
  rw [linkEnvironment, read_eq ho, if_neg (by simp [hregistered])]
  simp only [touchEnvironment_eq henvironment, touch_eq hhead]
  exact assign_eq (s := { s with links := s.links.pushFront t }) ho _

/-- The state after an attachment. -/
def attached (session : S) (t : T) (s : Runtime S T) : Runtime S T :=
  { s with
    transports := Function.update s.transports t
      (some { storage := some session, environmentRegistered := true })
    links := s.links.pushFront t
    handles := Function.update s.handles session (some (some t))
    created := insert t s.created }

theorem Open.attach_eq (h : s.Open l) (ht : t ∉ s.created) :
    s.attach session t true = s.attached session t := by
  have hfresh := h.fresh ht
  have hhead : ∀ a, s.links.head = some a → ∃ o : TransportObject S,
      Function.update s.transports t (some { storage := some session }) a = some o := by
    intro a ha
    have hmem := h.represents.head_mem ha
    have hat : a ≠ t := fun heq => hfresh.1 (heq ▸ hmem)
    rw [Function.update_of_ne hat]
    exact (h.members a).mp hmem
  have hlink := linkEnvironment_eq
    (s := { s with
      transports := Function.update s.transports t (some { storage := some session })
      created := insert t s.created })
    (Function.update_self ..) rfl h.environment_ne hhead
  simp only [Runtime.attach, if_true, hlink, Runtime.put, Runtime.attached, Function.update_idem]

omit [DecidableEq S] in
/-- A transport with no memory has no method on the stack. -/
theorem Held.unused (h : s.Held l) (ht : s.transports t = none) :
    ∀ frame ∈ s.stack, frame.transport ≠ t := by
  rintro frame hframe rfl
  obtain ⟨o, ho, -⟩ := h.frames frame hframe
  cases ht.symm.trans ho

theorem Open.attached (h : s.Open l) (ht : t ∉ s.created) (hhandle : s.handles session = some none) :
    (s.attached session t).Open (t :: l) := by
  obtain ⟨hl, hnone⟩ := h.fresh ht
  have hself : (s.attached session t).transports t =
      some { storage := some session, environmentRegistered := true } := Function.update_self ..
  have hother : ∀ a, a ≠ t → (s.attached session t).transports a = s.transports a :=
    fun a ha => Function.update_of_ne ha ..
  have hunused := h.unused hnone
  refine ⟨⟨h.noFault, h.represents.pushFront hl, ?members, ?created, ?deletions, ?sound, ?handles, ?frames,
    ?cancelling, ?callbacks⟩, h.notBegun, h.environment, h.notReleased, ?notCleaning⟩
  case members =>
    intro a
    by_cases hat : a = t
    · subst hat
      simp [hself]
    · rw [hother a hat, List.mem_cons, h.members a, or_iff_right hat]
  case created =>
    intro a ha
    rcases List.mem_cons.mp ha with rfl | ha
    · exact Finset.mem_insert_self ..
    · exact Finset.mem_insert_of_mem (h.created a ha)
  case deletions =>
    intro a
    refine ⟨(h.deletions a).1, fun ha => ?_⟩
    by_cases hat : a = t
    · exact (h.deletions a).2 (.inl (hat ▸ ht))
    · rw [hother a hat] at ha
      exact (h.deletions a).2 (ha.imp_left (mt Finset.mem_insert_of_mem))
  case sound =>
    intro a oa ha
    by_cases hat : a = t
    · subst hat
      cases hself.symm.trans ha
      constructor <;> simp
    · exact h.sound a oa ((hother a hat).symm.trans ha)
  case handles =>
    intro σ a
    by_cases hat : a = t
    · subst hat
      rw [hself]
      by_cases hσ : σ = session
      · subst hσ
        simp [Runtime.attached]
      · have hold := h.handles σ a
        rw [hnone] at hold
        simp only [Runtime.attached, Function.update_of_ne hσ]
        simpa [eq_comm (a := session), hσ] using hold
    · rw [hother a hat, ← h.handles σ a]
      by_cases hσ : σ = session
      · subst hσ
        simp [Runtime.attached, hhandle, eq_comm (a := t), hat]
      · simp only [Runtime.attached, Function.update_of_ne hσ]
  case frames =>
    intro frame hframe
    rw [hother _ (hunused frame hframe)]
    exact h.frames frame hframe
  case cancelling =>
    intro a
    by_cases hat : a = t
    · subst hat
      rw [isCancelling, hself]
      exact List.count_eq_zero.mpr fun hmem => hunused _ hmem rfl
    · rw [isCancelling, hother a hat]
      exact h.cancelling a
  case callbacks =>
    intro a
    by_cases hat : a = t
    · subst hat
      rw [isInsideCloseCallback, hself]
      exact List.count_eq_zero.mpr fun hmem => hunused _ hmem rfl
    · rw [isInsideCloseCallback, hother a hat]
      exact h.callbacks a
  case notCleaning =>
    intro a oa ha
    by_cases hat : a = t
    · subst hat
      cases hself.symm.trans ha
      rfl
    · exact h.notCleaning a oa ((hother a hat).symm.trans ha)

/-- A transport that is not valid leaves nothing behind. -/
theorem Open.attach_invalid (h : s.Open l) (ht : t ∉ s.created) :
    (s.attach session t false).Open l := by
  have hnone := (h.fresh ht).2
  have heq : s.attach session t false =
      { s with
        created := insert t s.created
        deletions := Function.update s.deletions t (s.deletions t + 1) } := by
    rw [Runtime.attach, if_neg (by simp),
      delete_unlinked (Function.update_self ..) rfl (.inl rfl)]
    simp only [Function.update_idem, ← hnone, Function.update_eq_self]
  have hzero := (h.deletions t).2 (.inl ht)
  rw [heq]
  refine { h with created := fun a ha => Finset.mem_insert_of_mem (h.created a ha),
                  deletions := fun a => ?_ }
  by_cases hat : a = t
  · subst hat
    simp [hzero, hnone]
  · simp only [Function.update_of_ne hat]
    exact ⟨(h.deletions a).1, fun ha =>
      (h.deletions a).2 (ha.imp_left (mt Finset.mem_insert_of_mem))⟩

theorem Open.attach (h : s.Open l) (ht : t ∉ s.created) (hhandle : s.handles session = some none)
    (valid : Bool) : ∃ l', (s.attach session t valid).Open l' := by
  cases valid with
  | true => exact ⟨t :: l, h.attach_eq ht ▸ h.attached ht hhandle⟩
  | false => exact ⟨l, h.attach_invalid ht⟩

omit [DecidableEq S] in
/-- `activate`. -/
theorem Open.activate (h : s.Open l) (ho : s.transports t = some o) (initialized : Bool) :
    (s.activate t initialized).Open l := by
  rw [Runtime.activate, read_eq ho]
  split
  case isTrue => exact h
  case isFalse hready =>
  simp only [Bool.or_eq_true, not_or, Bool.not_eq_true] at hready
  have hactive := hready.1.1
  have hsound := h.sound t o ho
  have halone := h.alone ho (.inl hactive)
  have hpollClosed := (hsound.idle hactive).2.trans hready.1.2
  have hfits : s.Fits t { o with poll := .opened, pollInitialized := true, active := true }
      s.handles s.stack := by
    refine h.fits ho ?_ rfl (fun a ha hat => absurd hat (halone a ha)) ?_ rfl
    · exact { hsound with
        initialized := rfl
        idle := fun hidle => absurd hidle (by simp)
        polled := fun _ => ⟨by simp, by simp [hpollClosed]⟩
        running := fun _ _ => rfl
        cleaning := fun hcleaning =>
          absurd (hcleaning.symm.trans (h.notCleaning t o ho)) (by decide) }
    · simp [TransportObject.cancelling, hready.1.2]
  rw [assign_eq ho]
  exact (h.put _ ho hfits (h.notCleaning t o ho)).enter (put_self ..) rfl hready.1.2 _ rfl
    (by simp) (by simp)

omit [DecidableEq S] in
/-- The end of `requestDestroy`. -/
theorem Open.deleteIfClosed (h : s.Open l) (ho : s.transports t = some o)
    (hstorage : o.storage = none) (hactive : o.active = true) :
    ∃ l', (s.deleteIfClosed t).Open l' := by
  rw [Runtime.deleteIfClosed, read_eq ho]
  split
  case isFalse => exact ⟨l, h⟩
  case isTrue hclosed =>
    rw [Bool.and_eq_true, Bool.not_eq_true'] at hclosed
    have hpoll := ((h.sound t o ho).polled hactive).2.mp hclosed.1
    exact ⟨_, h.delete ho hstorage (.inr ⟨hpoll, hclosed.2⟩)⟩

omit [DecidableEq S] in
/-- `requestDestroy`, of a transport that no handle refers to. -/
theorem Open.requestDestroy (h : s.Open l) (ho : s.transports t = some o)
    (hstorage : o.storage = none) : ∃ l', (s.requestDestroy t).Open l' := by
  have hsound := h.sound t o ho
  have hnotCleaning := h.notCleaning t o ho
  have hfits : s.Fits t { o with destroyRequested := true } s.handles s.stack := by
    refine h.fits ho ?_ rfl (fun frame hframe hat => ?_) rfl rfl
    · exact { hsound with
        requested := fun _ => hstorage
        cleaning := fun hcleaning => absurd (hcleaning.symm.trans hnotCleaning) (by decide) }
    · obtain ⟨hactive, hcleaning, hpoll⟩ := h.entered ho hframe hat
      exact ⟨hactive, hcleaning, hpoll⟩
  have hput := h.put _ ho hfits hnotCleaning
  rw [Runtime.requestDestroy, assign_eq ho, read_eq (put_self ..)]
  by_cases hactive : o.active = true
  · rw [if_neg (by simp [hactive])]
    by_cases hclosing : o.closing = true
    · rw [if_neg (by simp [hclosing])]
      exact hput.deleteIfClosed (put_self ..) hstorage hactive
    · rw [if_pos (by simp [hclosing])]
      rw [Bool.not_eq_true] at hclosing
      have henter := hput.enter (put_self ..) hactive hclosing (.requestDestroy t) rfl
        (by simp) (by simp)
      exact ⟨l, henter.closeNow (put_self ..)⟩
  · rw [if_pos (by simp [hactive])]
    exact ⟨_, hput.delete (put_self ..) hstorage (.inl (by simpa using hactive))⟩

/-- `dispose` and the finalizer. -/
theorem Open.dispose (h : s.Open l) {transport : Option (Option T)}
    (hhandle : s.handles session = some (some t)) (htransport : ∀ a, transport ≠ some (some a)) :
    ∃ l', ({ s with
      handles := Function.update s.handles session transport }.dispose t).Open l' := by
  obtain ⟨o, ho, hstorage⟩ := (h.handles session t).mp hhandle
  have hsound := h.sound t o ho
  rw [Runtime.dispose,
    assign_eq (s := { s with handles := Function.update s.handles session transport }) ho]
  have hfits : s.Fits t { o with storage := none }
      (Function.update s.handles session transport) s.stack := by
    have hold : s.Fits t o s.handles s.stack :=
      h.fits ho hsound rfl (fun _ => h.entered ho) rfl rfl
    refine ⟨{ hsound with requested := fun _ => rfl }, fun σ => ?own, fun σ a ha => ?others,
      fun frame hframe hat => ?entered, hold.frames, hold.cancelling, hold.callbacks⟩
    case own =>
      by_cases hσ : σ = session
      · subst hσ
        simp [htransport]
      · have hown := hold.own σ
        rw [hstorage] at hown
        rw [Function.update_of_ne hσ, hown]
        simp [eq_comm (a := session), hσ]
    case others =>
      by_cases hσ : σ = session
      · subst hσ
        simp [htransport, hhandle, eq_comm (a := t), ha]
      · rw [Function.update_of_ne hσ]
    case entered =>
      obtain ⟨hactive, hcleaning, hpoll⟩ := hold.entered frame hframe hat
      exact ⟨hactive, hcleaning, hpoll⟩
  exact (h.put _ ho hfits (h.notCleaning t o ho)).requestDestroy (put_self ..) rfl

omit [DecidableEq S] in
/-- The end of `onPollClosed`. -/
theorem Open.finishPollClosed (h : s.Open l) {stack : List (Frame T)}
    (hstack : s.stack = .closeCallback t :: stack) :
    ∃ l', ({ s with stack }.finishPollClosed t).Open l' := by
  obtain ⟨o, ho, hentered⟩ := h.frames (.closeCallback t) (hstack ▸ List.mem_cons_self ..)
  simp only [Frame.transport] at ho
  have hsound := h.sound t o ho
  have hcount : stack.count (.closeCallback t) = 0 := by
    have hcallbacks := h.callbacks t
    rw [hstack, List.count_cons_self, isInsideCloseCallback, ho, Option.elim_some] at hcallbacks
    have hle := Bool.toNat_le o.insideCloseCallback
    omega
  have hfits : s.Fits t { o with insideCloseCallback := false } s.handles stack := by
    have hold : s.Fits t o s.handles s.stack :=
      h.fits ho hsound rfl (fun _ => h.entered ho) rfl rfl
    refine ⟨{ hsound with }, hold.own, fun _ _ _ => Iff.rfl, fun frame hframe hat => ?entered,
      fun frame hat => ?frames, ?cancelling, hcount⟩
    case entered =>
      obtain ⟨hactive, hcleaning, hpoll⟩ :=
        hold.entered frame (hstack ▸ List.mem_cons_of_mem _ hframe) hat
      exact ⟨hactive, hcleaning, hpoll⟩
    case frames =>
      rw [hstack, List.count_cons_of_ne]
      rintro rfl
      exact hat rfl
    case cancelling =>
      have hcancelling := hold.cancelling
      rw [hstack, List.count_cons_of_ne (by simp)] at hcancelling
      exact hcancelling
  have hput := h.put _ ho hfits (h.notCleaning t o ho)
  rw [Runtime.finishPollClosed, assign_eq (s := { s with stack }) ho]
  dsimp only
  rw [read_eq (put_self ..)]
  split
  case isFalse => exact ⟨l, hput⟩
  case isTrue hrequested =>
    have hclosed : o.poll = .closed := hentered.poll.mp ⟨t, rfl⟩
    exact ⟨_, hput.delete (put_self ..) (hsound.requested hrequested) (.inr ⟨hclosed, rfl⟩)⟩

omit [DecidableEq S] [DecidableEq T] in
/-- A poll handle that libuv has belongs to a transport. -/
theorem exists_of_pollOf {poll : PollHandle} (h : s.pollOf t = poll)
    (hpoll : poll ≠ .uninitialized) : ∃ o, s.transports t = some o := by
  cases ho : s.transports t with
  | none =>
    rw [pollOf, ho] at h
    exact absurd h.symm hpoll
  | some o => exact ⟨o, rfl⟩

omit [DecidableEq S] in
/-- libuv has closed a poll handle. -/
theorem Held.fitsClosed (h : s.Held l) (ho : s.transports t = some o) (hstack : s.stack = [])
    (hpoll : o.poll = .closing) :
    s.Fits t { o with poll := .closed, pollClosed := true } s.handles s.stack := by
  have hsound := h.sound t o ho
  have hactive : o.active = true := by
    by_contra hidle
    cases hpoll.symm.trans (hsound.idle (by simpa using hidle)).1
  have hclosing : o.closing = true := by
    by_contra hrunning
    cases hpoll.symm.trans (hsound.running hactive (by simpa using hrunning))
  refine h.fits ho ?_ rfl (fun frame hframe => ?_) ?_ rfl
  · exact { hsound with
      idle := fun hidle => absurd (hidle.symm.trans hactive) (by decide)
      polled := fun _ => ⟨by simp, by simp⟩
      running := fun _ hrunning => absurd (hrunning.symm.trans hclosing) (by decide)
      cleaning := fun hcleaning => ⟨(hsound.cleaning hcleaning).1, by simp⟩ }
  · rw [hstack] at hframe
    cases hframe
  · simp [TransportObject.cancelling, hpoll]

omit [DecidableEq S] in
/-- `onPollClosed`. -/
theorem Open.onPollClosed (h : s.Open l) (hstack : s.stack = []) (hpoll : s.pollOf t = .closing) :
    (s.onPollClosed t).Open l := by
  obtain ⟨o, ho⟩ := exists_of_pollOf hpoll (by decide)
  rw [pollOf, ho, Option.elim_some] at hpoll
  have hclosed := h.fitsClosed ho hstack hpoll
  have hactive : o.active = true := by
    by_contra hidle
    cases hpoll.symm.trans ((h.sound t o ho).idle (by simpa using hidle)).1
  have hfits : s.Fits t { o with poll := .closed, pollClosed := true, insideCloseCallback := true }
      s.handles [.closeCallback t] := by
    refine ⟨{ hclosed.sound with }, hclosed.own, hclosed.others, fun frame hframe hat => ?entered,
      fun frame hat => ?frames, ?cancelling, ?callbacks⟩
    case entered =>
      cases List.mem_singleton.mp hframe
      exact ⟨hactive, h.notCleaning t o ho, by simp⟩
    case frames =>
      rw [hstack, List.count_cons_of_ne]
      rintro rfl
      exact hat rfl
    case cancelling => simp [TransportObject.cancelling]
    case callbacks => simp
  have hput := h.put _ ho hfits (h.notCleaning t o ho)
  rw [Runtime.onPollClosed, assign_eq ho, read_eq (put_self ..),
    if_neg (by simp [h.notCleaning t o ho])]
  rw [assign_eq (put_self ..)]
  simpa only [Runtime.put, Function.update_idem, hstack] using hput

/-- The finalizer of a session without a transport. -/
theorem Held.finalize (h : s.Held l) (hhandle : s.handles session = some none) :
    { s with handles := Function.update s.handles session none }.Held l where
  noFault := h.noFault
  represents := h.represents
  members := h.members
  created := h.created
  deletions := h.deletions
  sound := h.sound
  handles σ a := by
    refine Iff.trans ?_ (h.handles σ a)
    by_cases hσ : σ = session
    · subst hσ
      simp [hhandle]
    · simp only [Function.update_of_ne hσ]
  frames := h.frames
  cancelling := h.cancelling
  callbacks := h.callbacks

/-- Every event but the cleanup keeps the invariant. -/
theorem Open.next (h : s.Open l) {event : Event S T} {s' : Runtime S T}
    (hnext : s.next event = some s') (hcleanup : event ≠ .cleanup) : ∃ l', s'.Open l' := by
  cases event with
  | cleanup => exact absurd rfl hcleanup
  | attach session t valid =>
    simp only [Runtime.next] at hnext
    split_ifs at hnext with hguard
    obtain ⟨environment, henvironment, hcleaning⟩ := h.environment
    simp only [henvironment, hcleaning, Bool.false_eq_true, if_false, Option.some.injEq] at hnext
    exact hnext ▸ h.attach hguard.2 hguard.1 valid
  | activate session initialized =>
    simp only [Runtime.next] at hnext
    split at hnext <;> cases hnext
    case h_2 => exact ⟨l, h⟩
    case h_3 t hhandle =>
      obtain ⟨o, ho, -⟩ := (h.handles session t).mp hhandle
      exact ⟨l, h.activate ho initialized⟩
  | terminate session =>
    simp only [Runtime.next] at hnext
    split at hnext <;> cases hnext
    case h_2 => exact ⟨l, h⟩
    case h_3 t hhandle =>
      obtain ⟨o, ho, -⟩ := (h.handles session t).mp hhandle
      exact ⟨l, h.closeNow ho⟩
  | dispose session =>
    simp only [Runtime.next] at hnext
    split at hnext <;> cases hnext
    case h_2 => exact ⟨l, h⟩
    case h_3 t hhandle => exact h.dispose hhandle (by simp)
  | finalize session =>
    simp only [Runtime.next] at hnext
    split at hnext
    case h_1 => cases hnext
    case h_2 transport hhandle =>
      cases transport with
      | some t =>
        cases hnext
        exact h.dispose hhandle (by simp)
      | none =>
        cases hnext
        exact ⟨l, { h with toHeld := h.toHeld.finalize hhandle }⟩
  | operate session =>
    simp only [Runtime.next] at hnext
    split at hnext
    case h_1 => cases hnext
    case h_2 =>
      cases hnext
      exact ⟨l, h⟩
    case h_3 t hhandle =>
      obtain ⟨o, ho, -⟩ := (h.handles session t).mp hhandle
      simp only [ho] at hnext
      split_ifs at hnext with hactive hclosing
      · cases hnext
        exact ⟨l, h⟩
      · cases hnext
        exact ⟨l, h.enter ho (by simpa using hactive) (by simpa using hclosing) _ rfl (by simp)
          (by simp)⟩
  | poll t =>
    simp only [Runtime.next] at hnext
    split_ifs at hnext with hguard
    cases hnext
    obtain ⟨o, ho⟩ := exists_of_pollOf hguard.2 (by decide)
    rw [pollOf, ho, Option.elim_some] at hguard
    have hsound := h.sound t o ho
    have hactive : o.active = true := by
      by_contra hidle
      have hpoll := (hsound.idle (by simpa using hidle)).1
      cases hguard.2.symm.trans hpoll
    have hclosing : o.closing = false := by
      have hquiet := (h.quiet hguard.1 ho).1
      simpa [TransportObject.cancelling, hactive, hguard.2] using hquiet
    have henter := h.enter ho hactive hclosing (.method t) rfl (by simp) (by simp)
    rw [hguard.1] at henter
    exact ⟨l, henter⟩
  | close =>
    simp only [Runtime.next] at hnext
    split at hnext
    case h_2 => cases hnext
    case h_1 t stack hstack =>
      cases hnext
      obtain ⟨o, ho, -⟩ := h.frames (.method t) (hstack ▸ List.mem_cons_self ..)
      exact ⟨l, h.closeNow ho⟩
  | resume =>
    simp only [Runtime.next] at hnext
    split at hnext
    case h_1 => cases hnext
    case h_2 frame stack hstack =>
      cases hnext
      cases frame with
      | method t =>
        obtain ⟨o, ho, -⟩ := h.frames (.method t) (hstack ▸ List.mem_cons_self ..)
        have hleave := h.leave hstack (by simp) (by simp)
        refine ⟨l, ?_⟩
        rw [Runtime.resume, touch_eq fun a ha => Option.some.inj ha ▸ ⟨o, ho⟩]
        exact hleave
      | cancelWrites t => exact ⟨l, h.closePoll hstack⟩
      | requestDestroy t =>
        obtain ⟨o, ho, hentered⟩ := h.frames (.requestDestroy t) (hstack ▸ List.mem_cons_self ..)
        have hleave := h.leave hstack (by simp) (by simp)
        simp only [Frame.transport] at ho
        have hopen : o.pollClosed = false := by
          have hpolled := ((h.sound _ o ho).polled hentered.active).2
          have hnot := mt hentered.poll.mpr (by simp)
          simpa using mt hpolled.mp hnot
        refine ⟨l, ?_⟩
        rw [Runtime.resume, Runtime.deleteIfClosed, read_eq (s := { s with stack }) ho,
          if_neg (by simp [hopen])]
        exact hleave
      | closeCallback t => exact h.finishPollClosed hstack
  | pollClosed t =>
    simp only [Runtime.next] at hnext
    split_ifs at hnext with hguard
    cases hnext
    exact ⟨l, h.onPollClosed hguard.1 hguard.2⟩

end Runtime

end Eiows.Lifetime
