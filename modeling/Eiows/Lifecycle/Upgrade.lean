import Eiows.Lifecycle.Runs

/-!
# The upgrade of a connection

`activate` does not look at the state of the connection after the native write of the
response. When nothing closes the connection in these native calls, `readyState` only
goes forward and the callback of the upgrade gets an open connection.
-/

namespace Eiows.Lifecycle

variable {W K : Type}

/-- What the fields of a client say about its upgrade. -/
structure Client.Upgrading (c : Client) : Prop where
  uncalled : c.upgradePending = true ∨ c.accepted = false → c.upgradeCalls = 0
  calls : c.upgradeCalls ≤ 1
  inactive : c.socketClosed = false ∨ c.activationScheduled = true → c.transportActive = false
  scheduled : c.activationScheduled = true → c.socketClosed = true
  polled : c.pollFailed = true → c.transportActive = true
  timer : c.closeTimer = true → c.readyState = .closing ∨ c.readyState = .closed
  backwards : c.backwards = false
  miscalled : c.miscalled = false

/-- The upgrade ends: the connection was CONNECTING, and its transport is not closing. -/
theorem Client.Upgrading.opened {c : Client} (h : c.Upgrading)
    (hstate : c.readyState = .connecting) (hpending : c.upgradePending = true)
    (haccepted : c.accepted = true)
    (hclosing : c.nativeTransport = true → c.transportClosing = false) : c.opened.Upgrading where
  uncalled hc := by
    rcases hc with hc | hc
    · simp [Client.opened, Client.setReadyState] at hc
    · cases hc.symm.trans haccepted
  calls := by
    have hzero := h.uncalled (.inl hpending)
    have hone : c.opened.upgradeCalls = c.upgradeCalls + 1 := rfl
    omega
  inactive := h.inactive
  scheduled := h.scheduled
  polled := h.polled
  timer htimer := by
    rcases h.timer htimer with hclosing | hclosed
    · cases hstate.symm.trans hclosing
    · cases hstate.symm.trans hclosed
  backwards := by simp [Client.opened, Client.setReadyState, h.backwards, hstate, rank]
  miscalled := by
    cases hnative : c.nativeTransport with
    | false => simp [Client.opened, Client.setReadyState, h.miscalled, hnative]
    | true => simp [Client.opened, Client.setReadyState, h.miscalled, hclosing hnative]

/-- A change of a client that does not go on with its upgrade. -/
structure Client.Calm (c c' : Client) : Prop where
  accepted : c'.accepted = c.accepted
  nativeTransport : c'.nativeTransport = c.nativeTransport
  upgradePending : c'.upgradePending = true → c.upgradePending = true
  upgradeCalls : c'.upgradeCalls = c.upgradeCalls
  transportActive : c'.transportActive = c.transportActive
  pollFailed : c'.pollFailed = c.pollFailed
  transportClosing : c.transportClosing = true → c'.transportClosing = true
  socketClosed : c.socketClosed = true → c'.socketClosed = true
  activationScheduled : c'.activationScheduled = true → c.activationScheduled = true
  backwards : c'.backwards = c.backwards
  miscalled : c'.miscalled = c.miscalled
  timer : (c.closeTimer = true → c.readyState = .closing ∨ c.readyState = .closed) →
    c'.closeTimer = true → c'.readyState = .closing ∨ c'.readyState = .closed

/-- What of a client its upgrade depends on. -/
def Client.upgradeFields (c : Client) :=
  (c.accepted, c.nativeTransport, c.upgradePending, c.upgradeCalls, c.transportActive, c.pollFailed,
    c.transportClosing, c.socketClosed, c.activationScheduled, c.backwards, c.miscalled, c.closeTimer,
    c.readyState)

theorem Client.Calm.of_eq {c c' : Client} (h : c'.upgradeFields = c.upgradeFields) : c.Calm c' := by
  simp only [Client.upgradeFields, Prod.mk.injEq] at h
  obtain ⟨haccepted, hnative, hpending, hcalls, hactive, hpolled, hclosing, hsocket, hscheduled,
    hbackwards, hmiscalled, htimer, hstate⟩ := h
  refine ⟨haccepted, hnative, hpending ▸ id, hcalls, hactive, hpolled, hclosing ▸ id, hsocket ▸ id,
    hscheduled ▸ id, hbackwards, hmiscalled, ?_⟩
  rw [htimer, hstate]
  exact id

theorem Client.Calm.refl (c : Client) : c.Calm c := Client.Calm.of_eq rfl

theorem Client.Calm.trans {c₁ c₂ c₃ : Client} (h : c₁.Calm c₂) (h' : c₂.Calm c₃) : c₁.Calm c₃ where
  accepted := h'.accepted.trans h.accepted
  nativeTransport := h'.nativeTransport.trans h.nativeTransport
  upgradePending := h.upgradePending ∘ h'.upgradePending
  upgradeCalls := h'.upgradeCalls.trans h.upgradeCalls
  transportActive := h'.transportActive.trans h.transportActive
  pollFailed := h'.pollFailed.trans h.pollFailed
  transportClosing := h'.transportClosing ∘ h.transportClosing
  socketClosed := h'.socketClosed ∘ h.socketClosed
  activationScheduled := h.activationScheduled ∘ h'.activationScheduled
  backwards := h'.backwards.trans h.backwards
  miscalled := h'.miscalled.trans h.miscalled
  timer := h'.timer ∘ h.timer

theorem Client.Upgrading.calm {c c' : Client} (h : c.Upgrading) (hcalm : c.Calm c') :
    c'.Upgrading where
  uncalled hc := by
    rw [hcalm.upgradeCalls]
    exact h.uncalled (hc.imp hcalm.upgradePending hcalm.accepted.symm.trans)
  calls := hcalm.upgradeCalls ▸ h.calls
  inactive hc := by
    rw [hcalm.transportActive]
    refine h.inactive (hc.imp (fun hopen => ?_) hcalm.activationScheduled)
    by_contra hclosed
    cases hopen.symm.trans (hcalm.socketClosed (by simpa using hclosed))
  scheduled hc := hcalm.socketClosed (h.scheduled (hcalm.activationScheduled hc))
  polled hc := by
    rw [hcalm.transportActive]
    exact h.polled (hcalm.pollFailed.symm.trans hc)
  timer := hcalm.timer h.timer
  backwards := hcalm.backwards.trans h.backwards
  miscalled := hcalm.miscalled.trans h.miscalled

/-- CLOSING is later than what a client that is not closed is in. -/
theorem calm_closing {c : Client} (hstate : c.readyState ≠ .closed) :
    c.Calm (c.setReadyState .closing) := by
  refine ⟨rfl, rfl, id, rfl, rfl, rfl, id, id, id, ?_, rfl, fun _ _ => .inl rfl⟩
  simp only [Client.setReadyState, Bool.or_eq_left_iff_imp, decide_eq_true_eq]
  intro hrank
  cases hc : c.readyState <;> simp [rank, hc] at hrank
  exact absurd hc hstate

/-- A method of the upgrade, or one that closes the transport when it goes on. -/
def Frame.ofUpgrade : Frame W K → Bool
  | .response _ | .activation _ | .writing _ | .reporting _ => true
  | _ => false

namespace Server

/-- Functions that do not go on with an upgrade push frames and change clients. -/
structure Calm (s s' : Server W K) : Prop where
  stack : ∃ pushed, s'.stack = pushed ++ s.stack ∧ ∀ frame ∈ pushed, frame.ofUpgrade = false
  client : ∀ w, (s.client w).Calm (s'.client w)
  maxBackpressure : s'.maxBackpressure = s.maxBackpressure

theorem Calm.refl (s : Server W K) : s.Calm s :=
  ⟨⟨[], rfl, by simp⟩, fun _ => Client.Calm.refl _, rfl⟩

theorem Calm.trans {s₁ s₂ s₃ : Server W K} (h : s₁.Calm s₂) (h' : s₂.Calm s₃) : s₁.Calm s₃ := by
  obtain ⟨pushed, hstack, hpushed⟩ := h.stack
  obtain ⟨pushed', hstack', hpushed'⟩ := h'.stack
  refine ⟨⟨pushed' ++ pushed, ?_, ?_⟩, fun w => (h.client w).trans (h'.client w),
    h'.maxBackpressure.trans h.maxBackpressure⟩
  · rw [hstack', hstack, List.append_assoc]
  · intro frame hframe
    exact (List.mem_append.mp hframe).elim (hpushed' frame) (hpushed frame)

variable [DecidableEq W] {s s' : Server W K} {w : W}

theorem calm_set {f : Client → Client} (hf : (s.client w).Calm (f (s.client w))) :
    s.Calm (s.set w f) := by
  refine ⟨⟨[], rfl, by simp⟩, fun a => ?_, rfl⟩
  by_cases ha : a = w
  · subst ha
    rwa [set_client_self]
  · rw [set_client_of_ne ha]
    exact Client.Calm.refl _

/-- An update of a client that its upgrade does not see. -/
theorem calm_update {f : Client → Client} (hf : ∀ c, (f c).upgradeFields = c.upgradeFields) :
    s.Calm (s.set w f) :=
  calm_set (Client.Calm.of_eq (hf _))

omit [DecidableEq W] in
theorem calm_push {frame : Frame W K} (hframe : frame.ofUpgrade = false) :
    s.Calm (s.push frame) :=
  ⟨⟨[frame], rfl, by simpa using hframe⟩, fun _ => Client.Calm.refl _, rfl⟩

omit [DecidableEq W] in
/-- An update of what is neither on the stack nor of a client. -/
theorem calm_of_eq (hstack : s'.stack = s.stack) (hclient : s'.client = s.client)
    (hmax : s'.maxBackpressure = s.maxBackpressure) : s.Calm s' := by
  refine ⟨⟨[], hstack, by simp⟩, fun w => ?_, hmax⟩
  rw [hclient]
  exact Client.Calm.refl _

theorem calm_setClosing (hstate : (s.client w).readyState ≠ .closed) :
    s.Calm (s.set w fun c => c.setReadyState .closing) :=
  calm_set (calm_closing hstate)

omit [DecidableEq W] in
theorem calm_finishClose : s.Calm s.finishClose := by
  rw [Server.finishClose]
  split
  case isTrue => exact Calm.refl s
  case isFalse => exact ⟨⟨[_], rfl, by simp [Frame.ofUpgrade]⟩, fun _ => Client.Calm.refl _, rfl⟩

theorem calm_remove : s.Calm (s.remove w) := by
  have hfilter : s.Calm { s with clients := s.clients.filter (· ≠ w) } := calm_of_eq rfl rfl rfl
  rw [Server.remove]
  split
  case isTrue => exact hfilter.trans calm_finishClose
  case isFalse => exact hfilter

theorem calm_finalizeClose : s.Calm (s.finalizeClose w) := by
  rw [Server.finalizeClose]
  split
  case isTrue => exact Calm.refl s
  case isFalse =>
    have hset : s.Calm ((s.set w finalized).push (.removing w)) := by
      refine (calm_set (f := finalized) ?_).trans (calm_push rfl)
      refine ⟨rfl, rfl, fun hfalse => absurd hfalse (by simp [finalized]), rfl, rfl, rfl,
        fun hclosing => ?_, id, id, ?_, rfl, fun _ _ => .inr rfl⟩
      · simp [finalized, hclosing]
      · cases hc : (s.client w).readyState <;>
          simp [finalized, Client.setReadyState, rank, hc]
    refine hset.trans ?_
    dsimp only
    split
    case isFalse => exact Calm.refl _
    case isTrue => exact calm_remove

theorem calm_closeNow : s.Calm (s.closeNow w) := by
  have hset : s.Calm (s.set w fun c => { c with transportClosing := true, pendingBytes := 0 }) :=
    calm_set ⟨rfl, rfl, id, rfl, rfl, rfl, fun _ => rfl, id, id, rfl, rfl, id⟩
  rw [Server.closeNow]
  split
  case isTrue => exact Calm.refl s
  case isFalse =>
    dsimp only
    split
    case isTrue => exact hset.trans (calm_push rfl)
    case isFalse => exact hset

omit [DecidableEq W] in
theorem push_client (frame : Frame W K) : (s.push frame).client = s.client := rfl

/-- After `closeNow` the transport is closing. -/
theorem closeNow_closing : ((s.closeNow w).client w).transportClosing = true := by
  rw [Server.closeNow]
  split
  case isTrue hclosing => exact hclosing
  case isFalse =>
    dsimp only
    split
    case isTrue => rw [push_client, set_client_self]
    case isFalse => rw [set_client_self]

variable [DecidableEq K]

theorem Held.calm_abort (h : s.Held) (sendResponse : Bool) :
    s.Calm (s.abortPendingUpgrade sendResponse w) := by
  rw [Server.abortPendingUpgrade]
  split
  case isTrue => exact Calm.refl s
  case isFalse hpending =>
  rw [Bool.not_eq_true', Bool.not_eq_false] at hpending
  have hclosing := calm_setClosing (h.pending hpending).2
  dsimp only
  generalize hs₁ : (if ((s.set w fun c => c.setReadyState .closing).client w).nativeTransport &&
      ((s.set w fun c => c.setReadyState .closing).client w).external then
      (s.set w fun c => c.setReadyState .closing).closeNow w
    else s.set w fun c => c.setReadyState .closing) = s₁
  have h₁ : s.Calm s₁ := by
    subst hs₁
    split
    case isTrue => exact hclosing.trans calm_closeNow
    case isFalse => exact hclosing
  have hdone : s₁.Calm (s₁.set w fun c => { c with upgradePending := false }) :=
    calm_set ⟨rfl, rfl, fun hfalse => absurd hfalse (by simp), rfl, rfl, rfl, id, id, id, rfl, rfl, id⟩
  split
  case isTrue => exact h₁.trans (calm_update fun _ => rfl)
  case isFalse =>
    split
    case isTrue => exact h₁.trans hdone
    case isFalse => exact (h₁.trans hdone).trans calm_finalizeClose

omit [DecidableEq K] in
theorem calm_release : s.Calm (s.release w) := by
  rw [Server.release]
  split
  case isTrue => exact (calm_push rfl).trans calm_closeNow
  case isFalse =>
    split
    case isTrue => exact calm_update fun _ => rfl
    case isFalse => exact calm_finalizeClose

theorem Held.calm_continueFail (h : s.Held) : s.Calm (s.continueFail w) := by
  rw [Server.continueFail]
  split
  case isTrue => exact h.calm_abort false
  case isFalse => exact calm_release

theorem Held.calm_fail (h : s.Held) : s.Calm (s.fail w) := by
  rw [Server.fail]
  split
  case isTrue => exact Calm.refl s
  case isFalse hstate =>
    have hclosing := calm_setClosing hstate
    dsimp only
    split
    case isTrue => exact hclosing.trans (h.setClosing hstate).calm_continueFail
    case isFalse =>
      refine (hclosing.trans (calm_update ?_)).trans (calm_push rfl)
      exact fun _ => rfl

theorem Held.calm_terminate (h : s.Held) : s.Calm (s.terminate w) := by
  rw [Server.terminate]
  split
  case isTrue => exact Calm.refl s
  case isFalse hstate =>
    split
    case isTrue => exact h.calm_abort false
    case isFalse => exact (calm_setClosing hstate).trans calm_release

theorem Held.calm_close (h : s.Held) (valid : Bool) : s.Calm (s.close w valid) := by
  rw [Server.close]
  split
  case isTrue => exact Calm.refl s
  case isFalse hstate =>
  simp only [Bool.or_eq_true, decide_eq_true_eq, not_or] at hstate
  split
  case isTrue => exact h.calm_abort true
  case isFalse =>
  split
  case isTrue => exact Calm.refl s
  case isFalse =>
    have hset : s.Calm (s.set w fun c => { c.setReadyState .closing with closeTimer := true }) := by
      refine calm_set ((calm_closing hstate.2).trans ?_)
      exact ⟨rfl, rfl, id, rfl, rfl, rfl, id, id, id, rfl, rfl, fun _ _ => .inl rfl⟩
    dsimp only
    split
    case isTrue => exact hset.trans (calm_push rfl)
    case isFalse => exact hset.trans (calm_push rfl)

/-- The upgrade of `w` cannot go on twice, and nothing of it is above a method that it calls. -/
def Above (f g : Frame W K) : Prop :=
  ∀ w, f = .activation w ∨ f = .writing w →
    g ≠ .activation w ∧ g ≠ .writing w ∧ g ≠ .reporting w

/-- The invariant of the upgrades, whatever the peer does. -/
structure Ordered (s : Server W K) : Prop where
  order : s.stack.Pairwise Above
  response : ∀ w, .response w ∈ s.stack → (s.client w).nativeTransport = false
  active : ∀ w, .activation w ∈ s.stack ∨ .writing w ∈ s.stack ∨ .reporting w ∈ s.stack →
    (s.client w).transportActive = true
  client : ∀ w, (s.client w).Upgrading

/-- If a method of the upgrade has called out, the transport is closing or going to. -/
def Shielded (s : Server W K) (w : W) : Prop :=
  .activation w ∈ s.stack ∨ .writing w ∈ s.stack →
    (s.client w).transportClosing = true ∨ .reporting w ∈ s.stack

/-- A native method of the upgrade of `w` is on top of the stack. -/
structure Ready (s : Server W K) (w : W) : Prop where
  head : s.stack.head? = some (.activation w) ∨ s.stack.head? = some (.writing w)
  /-- Unless a Close frame of the peer has started the timer, the connection is CONNECTING. -/
  connecting : (s.client w).closeTimer = false →
    (s.client w).readyState = .connecting ∧ (s.client w).upgradePending = true
  unpolled : (s.client w).pollFailed = false
  others : ∀ a, a ≠ w → s.Shielded a

/-- The invariant of the upgrades, when nothing closes a connection in `activate`. -/
structure Forward (s : Server W K) : Prop extends s.Ordered where
  shielded : (∀ w, s.Shielded w) ∨ ∃ w, s.Ready w

omit [DecidableEq W] [DecidableEq K]

theorem Calm.mem_iff (h : s.Calm s') {frame : Frame W K} (hframe : frame.ofUpgrade = true) :
    frame ∈ s'.stack ↔ frame ∈ s.stack := by
  obtain ⟨pushed, hstack, hpushed⟩ := h.stack
  rw [hstack, List.mem_append]
  refine or_iff_right fun hmem => ?_
  cases hframe.symm.trans (hpushed frame hmem)

theorem Ordered.calm (h : s.Ordered) (hcalm : s.Calm s') : s'.Ordered where
  order := by
    obtain ⟨pushed, hstack, hpushed⟩ := hcalm.stack
    rw [hstack, List.pairwise_append]
    have habove : ∀ f ∈ pushed, ∀ g, Above f g := by
      rintro f hf g w (rfl | rfl)
      · cases hpushed _ hf
      · cases hpushed _ hf
    refine ⟨List.pairwise_of_forall_mem_list fun f hf g _ => habove f hf g, h.order,
      fun f hf g _ => habove f hf g⟩
  response w hw := by
    rw [(hcalm.client w).nativeTransport]
    exact h.response w ((hcalm.mem_iff rfl).mp hw)
  active w hw := by
    rw [(hcalm.client w).transportActive]
    rw [hcalm.mem_iff rfl, hcalm.mem_iff rfl, hcalm.mem_iff rfl] at hw
    exact h.active w hw
  client w := (h.client w).calm (hcalm.client w)

theorem Shielded.calm (h : s.Shielded w) (hcalm : s.Calm s') : s'.Shielded w := by
  intro hw
  rw [hcalm.mem_iff rfl, hcalm.mem_iff rfl] at hw
  rw [hcalm.mem_iff rfl]
  exact (h hw).imp_left (hcalm.client w).transportClosing

/-- Nothing of an upgrade is on top of the stack. -/
theorem Forward.calm (h : s.Ordered) (hshielded : ∀ w, s.Shielded w) (hcalm : s.Calm s') :
    s'.Forward :=
  ⟨h.calm hcalm, .inl fun w => (hshielded w).calm hcalm⟩

/-- The transport of the upgrade on top of the stack is closing. -/
theorem Ready.closes (h : s.Ready w) (hordered : s.Ordered) (hcalm : s.Calm s')
    (hclosing : (s'.client w).transportClosing = true) : s'.Forward := by
  refine ⟨hordered.calm hcalm, .inl fun a => ?_⟩
  by_cases ha : a = w
  · subst ha
    exact fun _ => .inl hclosing
  · exact (h.others a ha).calm hcalm

/-- Without its top the stack is still ordered. -/
theorem Ordered.pop (h : s.Ordered) {frame : Frame W K} {stack : List (Frame W K)}
    (hstack : s.stack = frame :: stack) : ({ s with stack } : Server W K).Ordered where
  order := (List.pairwise_cons.mp (hstack ▸ h.order)).2
  response w hw := h.response w (hstack ▸ List.mem_cons_of_mem _ hw)
  active w hw := h.active w (by
    rw [hstack]
    exact hw.imp (List.mem_cons_of_mem _) (Or.imp (List.mem_cons_of_mem _)
      (List.mem_cons_of_mem _)))
  client := h.client

theorem Shielded.pop (h : s.Shielded w) {frame : Frame W K} {stack : List (Frame W K)}
    (hstack : s.stack = frame :: stack) (hframe : frame ≠ .reporting w) :
    ({ s with stack } : Server W K).Shielded w := by
  intro hw
  have hold : .activation w ∈ s.stack ∨ .writing w ∈ s.stack := by
    rw [hstack]
    exact hw.imp (List.mem_cons_of_mem _) (List.mem_cons_of_mem _)
  refine (h hold).imp_right fun hmem => ?_
  rw [hstack] at hmem
  exact (List.mem_cons.mp hmem).resolve_left hframe.symm

/-- When the native method on top of the stack has returned, no upgrade is at work. -/
theorem Ready.pop (h : s.Ready w) (hordered : s.Ordered) {frame : Frame W K}
    {stack : List (Frame W K)} (hstack : s.stack = frame :: stack) (a : W) :
    ({ s with stack } : Server W K).Shielded a := by
  have hframe : frame = .activation w ∨ frame = .writing w := by
    have hhead := h.head
    rw [hstack] at hhead
    simpa using hhead
  by_cases ha : a = w
  · subst ha
    have hbelow := (List.pairwise_cons.mp (hstack ▸ hordered.order)).1
    rintro (hmem | hmem)
    · exact absurd rfl (hbelow _ hmem a hframe).1
    · exact absurd rfl (hbelow _ hmem a hframe).2.1
  · refine (h.others a ha).pop hstack ?_
    rcases hframe with rfl | rfl <;> simp

/-- A method that is not above itself starts to close the transport when it returns. -/
theorem Ordered.pushReporting (h : s.Ordered) (hactive : (s.client w).transportActive = true) :
    (s.push (.reporting w)).Ordered where
  order := by
    refine List.pairwise_cons.mpr ⟨fun g _ a ha => ?_, h.order⟩
    rcases ha with ha | ha <;> cases ha
  response a ha := by
    rcases List.mem_cons.mp ha with ha | ha
    · cases ha
    · exact h.response a ha
  active a ha := by
    by_cases haw : a = w
    · rw [haw]
      exact hactive
    · refine h.active a (ha.imp (fun hmem => ?_) (Or.imp (fun hmem => ?_) (fun hmem => ?_)))
      · exact (List.mem_cons.mp hmem).resolve_left (by simp)
      · exact (List.mem_cons.mp hmem).resolve_left (by simp)
      · exact (List.mem_cons.mp hmem).resolve_left (by simpa using haw)
  client := h.client

theorem Shielded.pushReporting (h : s.Shielded w) (a : W) : (s.push (.reporting a)).Shielded w := by
  intro hw
  have hold : .activation w ∈ s.stack ∨ .writing w ∈ s.stack := by
    refine hw.imp (fun hmem => ?_) (fun hmem => ?_)
    · exact (List.mem_cons.mp hmem).resolve_left (by simp)
    · exact (List.mem_cons.mp hmem).resolve_left (by simp)
  exact (h hold).imp_right (List.mem_cons_of_mem _)

/-- The transport fails: it closes, or the error is reported first. -/
theorem Forward.failTransport [DecidableEq W] (h : s.Ordered)
    (hothers : ∀ a, a ≠ w → s.Shielded a) (hactive : (s.client w).transportActive = true) :
    (s.failTransport w).Forward := by
  have hcloses : ∀ s' : Server W K, s.Calm s' → (s'.client w).transportClosing = true →
      s'.Forward := by
    intro s' hcalm hclosing
    refine ⟨h.calm hcalm, .inl fun a => ?_⟩
    by_cases ha : a = w
    · subst ha
      exact fun _ => .inl hclosing
    · exact (hothers a ha).calm hcalm
  rw [Server.failTransport]
  split
  case isTrue => exact hcloses _ calm_closeNow closeNow_closing
  case isFalse hstate =>
    have hclosing := calm_setClosing hstate
    dsimp only
    split
    case isTrue => exact hcloses _ (hclosing.trans calm_closeNow) closeNow_closing
    case isFalse =>
      have hset : s.Calm ((s.set w fun c => c.setReadyState .closing).set w fun c =>
          { c with socketError := true }) :=
        hclosing.trans
          (calm_update fun _ => rfl)
      refine ⟨(h.calm hset).pushReporting ?_, .inl fun a => ?_⟩
      · rw [(hset.client w).transportActive]
        exact hactive
      · by_cases ha : a = w
        · rw [ha]
          exact fun _ => .inr (List.mem_cons_self ..)
        · exact ((hothers a ha).calm hset).pushReporting w

/-- A native method of the upgrade is called. -/
theorem Forward.begin (h : s.Ordered) (hshielded : ∀ a, s.Shielded a) (frame : Frame W K)
    (hframe : frame = .activation w ∨ frame = .writing w)
    (hbelow : ∀ g ∈ s.stack, g ≠ .activation w ∧ g ≠ .writing w ∧ g ≠ .reporting w)
    (hactive : (s.client w).transportActive = true)
    (hconnecting : (s.client w).closeTimer = false →
      (s.client w).readyState = .connecting ∧ (s.client w).upgradePending = true)
    (hunpolled : (s.client w).pollFailed = false) : (s.push frame).Forward where
  order := by
    refine List.pairwise_cons.mpr ⟨fun g hg a ha => ?_, h.order⟩
    have haw : a = w := by rcases ha with rfl | rfl <;> simpa using hframe
    rw [haw]
    exact hbelow g hg
  response a ha := by
    rcases List.mem_cons.mp ha with rfl | ha
    · rcases hframe with hframe | hframe <;> cases hframe
    · exact h.response a ha
  active a ha := by
    by_cases haw : a = w
    · rw [haw]
      exact hactive
    · refine h.active a (ha.imp (fun hmem => ?_) (Or.imp (fun hmem => ?_) (fun hmem => ?_)))
      all_goals
        refine (List.mem_cons.mp hmem).resolve_left ?_
        rcases hframe with rfl | rfl <;> simp [haw]
  client := h.client
  shielded := by
    refine .inr ⟨w, ⟨?_, hconnecting, hunpolled, fun a haw hmem => ?_⟩⟩
    · rcases hframe with rfl | rfl
      · exact .inl rfl
      · exact .inr rfl
    · have hold : .activation a ∈ s.stack ∨ .writing a ∈ s.stack := by
        refine hmem.imp (fun hmem => ?_) (fun hmem => ?_)
        all_goals
          refine (List.mem_cons.mp hmem).resolve_left ?_
          rcases hframe with rfl | rfl <;> simp [haw]
      exact (hshielded a hold).imp_right (List.mem_cons_of_mem _)

section Steps

variable [DecidableEq W]

/-- A client changes, and its upgrade may go on. -/
theorem Ordered.set (h : s.Ordered) {f : Client → Client} (hclient : (f (s.client w)).Upgrading)
    (hresponse : .response w ∈ s.stack → (f (s.client w)).nativeTransport = false)
    (hactive : (s.client w).transportActive = true → (f (s.client w)).transportActive = true) :
    (s.set w f).Ordered where
  order := h.order
  response a ha := by
    by_cases haw : a = w
    · subst haw
      rw [set_client_self]
      exact hresponse ha
    · rw [set_client_of_ne haw]
      exact h.response a ha
  active a ha := by
    by_cases haw : a = w
    · subst haw
      rw [set_client_self]
      exact hactive (h.active a ha)
    · rw [set_client_of_ne haw]
      exact h.active a ha
  client a := by
    by_cases haw : a = w
    · subst haw
      rw [set_client_self]
      exact hclient
    · rw [set_client_of_ne haw]
      exact h.client a

theorem Shielded.set {a : W} (h : s.Shielded a) {f : Client → Client}
    (hclosing : (s.client w).transportClosing = true → (f (s.client w)).transportClosing = true) :
    (s.set w f).Shielded a := by
  intro ha
  refine (h ha).imp_left fun hold => ?_
  by_cases haw : a = w
  · subst haw
    rw [set_client_self]
    exact hclosing hold
  · rwa [set_client_of_ne haw]

/-- `activate`. -/
theorem Forward.activate (h : s.Ordered) (hshielded : ∀ a, s.Shielded a)
    (hinactive : (s.client w).transportActive = false)
    (hclosed : (s.client w).socketClosed = true)
    (hscheduled : (s.client w).activationScheduled = false) : (s.activate w).Forward := by
  have hold := h.client w
  rw [Server.activate]
  split
  case isTrue =>
    refine Forward.calm h hshielded (Calm.trans (calm_set ?_) calm_finalizeClose)
    exact ⟨rfl, rfl, fun hfalse => absurd hfalse (by simp), rfl, rfl, rfl, id, id, id, rfl, rfl, id⟩
  case isFalse hready =>
    simp only [Bool.or_eq_true, not_or, Bool.not_eq_true', Bool.not_eq_false,
      decide_eq_true_eq, ne_eq, not_not] at hready
    have hset : (s.set w fun c => { c with transportActive := true }).Ordered := by
      refine h.set ?_ (h.response w) fun _ => rfl
      exact { hold with
        inactive := fun hc => by
          rcases hc with hc | hc
          · cases hc.symm.trans hclosed
          · cases hc.symm.trans hscheduled
        polled := fun _ => rfl }
    refine Forward.begin hset (fun a => (hshielded a).set id) (.activation w) (.inl rfl)
      (fun g hg => ?_) ?_ (fun _ => ?_) ?_
    · refine ⟨?_, ?_, ?_⟩
      · rintro rfl
        cases hinactive.symm.trans (h.active w (.inl hg))
      · rintro rfl
        cases hinactive.symm.trans (h.active w (.inr (.inl hg)))
      · rintro rfl
        cases hinactive.symm.trans (h.active w (.inr (.inr hg)))
    · rw [set_client_self]
    · rw [set_client_self]
      exact ⟨hready.2, hready.1.2⟩
    · rw [set_client_self]
      exact Bool.of_not_eq_true fun hpolled =>
        absurd (hinactive.symm.trans (hold.polled hpolled)) (by decide)

end Steps

end Server

end Eiows.Lifecycle
