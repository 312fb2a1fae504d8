import Eiows.Lifecycle.Upgrade

/-!
# The runs of an upgrade
-/

namespace Eiows.Lifecycle

variable {W K : Type} [DecidableEq W] [DecidableEq K] {s s' : Server W K} {w : W}
  {frame : Frame W K} {stack : List (Frame W K)}

namespace Server

/-- The native write of the response reports success only while no Close frame of the peer
has been dispatched, leaves no more bytes in the queue than `maxBackpressure`, and
`uv_poll_start` has not failed in it. -/
def Undisturbed (s : Server W K) : Event W K → Prop
  | .wrote pending => ∀ w, s.stack.head? = some (.writing w) →
    (s.client w).closeTimer = false ∧ (s.maxBackpressure = 0 ∨ pending ≤ s.maxBackpressure)
  | .ret => ∀ w, s.stack.head? = some (.writing w) → (s.client w).pollFailed = false
  | _ => True

/-- `handleUpgrade`, after the event `headers`. -/
theorem Forward.accept (h : s.Ordered) (hshielded : ∀ a, s.Shielded a) (hheld : s.Held)
    (hstack : s.stack = .headers w :: stack) :
    (({ s with stack } : Server W K).accept w).Forward := by
  have hpop := h.pop hstack
  have hpopped : ∀ a, ({ s with stack } : Server W K).Shielded a :=
    fun a => (hshielded a).pop hstack (by simp)
  obtain ⟨-, hwaiting, -⟩ := hheld.upgrading hstack
  have hclient := h.client w
  have hidle := ((hheld.sound w).waiting hwaiting).2.2.2.2.2
  rw [Server.accept]
  split
  case isTrue =>
    refine Forward.calm hpop hpopped (calm_update ?_)
    exact fun _ => rfl
  case isFalse =>
  have hnone : ∀ frame ∈ stack, s.Entered frame :=
    fun frame hframe => hheld.entered frame (hstack ▸ List.mem_cons_of_mem _ hframe)
  have hset := hpop.set (w := w) (f := fun c => { c with
      accepted := true, nativeTransport := c.attachable, server := true, transportSocket := true,
      upgradePending := true, readyState := .connecting, destroyScheduled := c.attachable })
    ⟨fun _ => hclient.uncalled (.inr hwaiting), hclient.calls, hclient.inactive,
      hclient.scheduled, hclient.polled, fun htimer => absurd (htimer.symm.trans hidle) (by decide),
      hclient.backwards, hclient.miscalled⟩
    (fun hmem => absurd (hwaiting.symm.trans (hnone _ hmem)) (by decide)) id
  have hsets : ∀ a, (({ s with stack } : Server W K).set w fun c => { c with
      accepted := true, nativeTransport := c.attachable, server := true, transportSocket := true,
      upgradePending := true, readyState := .connecting,
      destroyScheduled := c.attachable }).Shielded a := fun a => (hpopped a).set id
  dsimp only
  split
  case isTrue => exact ⟨{ hset with }, .inl fun a => hsets a⟩
  case isFalse hfallback =>
    refine ⟨⟨?_, fun a ha => ?_, fun a ha => ?_, hset.client⟩, .inl fun a ha => ?_⟩
    · refine List.pairwise_cons.mpr ⟨fun g _ a ha => ?_, hset.order⟩
      rcases ha with ha | ha <;> cases ha
    · rcases List.mem_cons.mp ha with ha | ha
      · cases ha
        rw [push_client]
        simpa using hfallback
      · exact hset.response a ha
    · refine hset.active a (ha.imp (fun hmem => ?_) (Or.imp (fun hmem => ?_) (fun hmem => ?_)))
      all_goals exact (List.mem_cons.mp hmem).resolve_left (by simp)
    · refine (hsets a (ha.imp (fun hmem => ?_) (fun hmem => ?_))).imp_right
        (List.mem_cons_of_mem _)
      all_goals exact (List.mem_cons.mp hmem).resolve_left (by simp)

omit [DecidableEq K] in
/-- `_onNativeTransportError` has returned, and the transport closes. -/
theorem Forward.endReport (h : s.Ordered) (hshielded : ∀ a, s.Shielded a)
    (hstack : s.stack = .reporting w :: stack) :
    (({ s with stack } : Server W K).closeNow w).Forward := by
  have hcalm : ({ s with stack } : Server W K).Calm (({ s with stack } : Server W K).closeNow w) :=
    calm_closeNow
  refine ⟨(h.pop hstack).calm hcalm, .inl fun a => ?_⟩
  by_cases haw : a = w
  · rw [haw]
    exact fun _ => .inl closeNow_closing
  · refine ((hshielded a).pop hstack ?_).calm hcalm
    simpa using Ne.symm haw

/-- The function on top of the stack, which is not of an upgrade, goes on. -/
theorem Forward.ret (h : s.Ordered) (hshielded : ∀ a, s.Shielded a) (hheld : s.Held)
    (hstack : s.stack = frame :: stack)
    (hresume : ({ s with stack } : Server W K).resume frame = some s')
    (hframe : ∀ w, frame ≠ .activation w ∧ frame ≠ .writing w) : s'.Forward := by
  have hpop := h.pop hstack
  have hentered := hheld.entered frame (hstack ▸ List.mem_cons_self ..)
  have hpopped : (∀ w, frame ≠ .reporting w) →
      ∀ a, ({ s with stack } : Server W K).Shielded a :=
    fun hne a => (hshielded a).pop hstack (hne a)
  cases frame with
  | headers w =>
    cases hresume
    exact Forward.accept h hshielded hheld hstack
  | response w =>
    have hshields := hpopped (by simp)
    simp only [Server.resume] at hresume
    split_ifs at hresume with hready
    · cases hresume
      exact ⟨hpop, .inl hshields⟩
    · cases hresume
      simp only [Bool.or_eq_true, not_or, Bool.not_eq_true', Bool.not_eq_false, decide_eq_true_eq,
        ne_eq, not_not] at hready
      have hnative : (s.client w).nativeTransport = false :=
        h.response w (hstack ▸ List.mem_cons_self ..)
      have hset := hpop.set (w := w) ((h.client w).opened hready.2 hready.1 hentered
        fun htrue => absurd (hnative.symm.trans htrue) (by decide)) (hpop.response w) id
      exact Forward.calm hset (fun a => (hshields a).set id) (calm_push rfl)
  | accepted w | activated w | replying w | listening =>
    cases hresume
    exact ⟨hpop, .inl (hpopped (by simp))⟩
  | activation w => exact absurd rfl (hframe w).1
  | writing w => exact absurd rfl (hframe w).2
  | reporting w =>
    cases hresume
    exact Forward.endReport h hshielded hstack
  | failing w =>
    cases hresume
    exact Forward.calm hpop (hpopped (by simp)) (hheld.pop hstack (Frame.plain rfl)).calm_continueFail
  | releasing w =>
    have hshields := hpopped (by simp)
    simp only [Server.resume] at hresume
    split_ifs at hresume
    · cases hresume
      exact ⟨hpop, .inl hshields⟩
    · cases hresume
      exact Forward.calm hpop hshields calm_finalizeClose
  | removing w =>
    cases hresume
    refine Forward.calm hpop (hpopped (by simp)) ((calm_update ?_).trans (calm_push rfl))
    exact fun _ => rfl
  | notifying callbacks =>
    have hshields := hpopped (by simp)
    cases callbacks with
    | nil =>
      cases hresume
      exact ⟨hpop, .inl hshields⟩
    | cons k rest =>
      cases hresume
      refine Forward.calm hpop hshields ⟨⟨[.listening, .notifying rest], rfl, ?_⟩,
        fun _ => Client.Calm.refl _, rfl⟩
      simp [Frame.ofUpgrade]
  | sweeping ws =>
    have hshields := hpopped (by simp)
    cases ws with
    | nil =>
      simp only [Server.resume] at hresume
      split_ifs at hresume
      · cases hresume
        exact Forward.calm hpop hshields (calm_of_eq rfl rfl rfl)
      · cases hresume
        exact ⟨hpop, .inl hshields⟩
    | cons w rest =>
      cases hresume
      have hpush : (({ s with stack } : Server W K).push (.sweeping rest)).Held :=
        (hheld.pop hstack (Frame.plain rfl)).push
          ⟨hentered.1, fun a ha => hentered.2 a (List.mem_cons_of_mem _ ha)⟩ (Frame.plain rfl)
      exact Forward.calm hpop hshields ((calm_push rfl).trans (hpush.calm_close true))

/-- An exception reaches a function that is not of an upgrade. -/
theorem Forward.throw (h : s.Ordered) (hshielded : ∀ a, s.Shielded a) (hheld : s.Held)
    (hstack : s.stack = frame :: stack)
    (hcatch : ({ s with stack } : Server W K).catchException frame = some s') : s'.Forward := by
  have hpop := h.pop hstack
  have hpopped : (∀ w, frame ≠ .reporting w) →
      ∀ a, ({ s with stack } : Server W K).Shielded a :=
    fun hne a => (hshielded a).pop hstack (hne a)
  cases frame with
  | headers w =>
    cases hcatch
    refine Forward.calm hpop (hpopped (by simp)) ((calm_update ?_).trans (calm_push rfl))
    exact fun _ => rfl
  | response w | accepted w =>
    cases hcatch
    exact Forward.calm hpop (hpopped (by simp)) (hheld.pop hstack (Frame.plain rfl)).calm_terminate
  | activated w | replying w =>
    cases hcatch
    exact Forward.calm hpop (hpopped (by simp)) (hheld.pop hstack (Frame.plain rfl)).calm_fail
  | reporting w =>
    cases hcatch
    exact Forward.endReport h hshielded hstack
  | failing w | sweeping ws | listening =>
    cases hcatch
    exact ⟨hpop, .inl (hpopped (by simp))⟩
  | activation w | writing w | releasing w | removing w | notifying ks => cases hcatch

omit [DecidableEq K] in
theorem calm_backpressure :
    s.Calm (s.set w fun c => if c.readyState ≠ .closed then c.setReadyState .closing else c) := by
  apply calm_set
  split
  case isTrue hstate => exact calm_closing hstate
  case isFalse => exact Client.Calm.refl _

omit [DecidableEq K] in
theorem calm_peerClose :
    s.Calm (s.set w fun c =>
      if c.readyState = .closed then c
      else { c.setReadyState .closing with closeTimer := true }) := by
  apply calm_set
  split
  case isTrue => exact Client.Calm.refl _
  case isFalse hstate =>
    refine (calm_closing hstate).trans ?_
    exact ⟨rfl, rfl, id, rfl, rfl, rfl, id, id, id, rfl, rfl, fun _ _ => .inl rfl⟩

omit [DecidableEq W] [DecidableEq K] in
theorem calm_serverClose {callback : Option K} : s.Calm (s.serverClose callback) := by
  have hlisten : s.Calm (s.listen callback) := by
    cases callback with
    | none => exact Calm.refl s
    | some k =>
      rw [Server.listen]
      split <;> exact calm_of_eq rfl rfl rfl
  refine hlisten.trans ?_
  rw [Server.serverClose]
  split
  case isTrue => exact Calm.refl _
  case isFalse =>
    have hclosing : (s.listen callback).Calm { s.listen callback with closing := true } :=
      calm_of_eq rfl rfl rfl
    exact hclosing.trans (calm_push rfl)

/-- The event `close` of a socket. -/
theorem Forward.socketClosed (h : s.Ordered) (hshielded : ∀ a, s.Shielded a)
    (hnext : s.next (.socketClosed w) = some s') : s'.Forward := by
  simp only [Server.next] at hnext
  split at hnext
  case isTrue => cases hnext
  case isFalse hguard =>
  simp only [callable, Bool.or_eq_true, not_or, Bool.not_eq_true', Bool.not_eq_false,
    Bool.and_eq_true, Bool.not_eq_true] at hguard
  obtain ⟨-, hopen⟩ := hguard
  have hinactive := (h.client w).inactive (.inl hopen)
  have hscheduled : (s.client w).activationScheduled = false := by
    by_contra hscheduled
    cases hopen.symm.trans ((h.client w).scheduled (by simpa using hscheduled))
  have hset : s.Calm (s.set w fun c => { c with socketClosed := true }) :=
    calm_set ⟨rfl, rfl, id, rfl, rfl, rfl, id, fun _ => rfl, id, rfl, rfl, id⟩
  have hset' : s.Calm ((s.set w fun c => { c with socketClosed := true }).set w fun c =>
      { c with transportSocket := false }) :=
    hset.trans (calm_update fun _ => rfl)
  have hself : ((s.set w fun c => { c with socketClosed := true }).set w fun c =>
      { c with transportSocket := false }).client w =
      { s.client w with socketClosed := true, transportSocket := false } := by
    rw [set_client_self, set_client_self]
  split at hnext
  case isTrue =>
    cases hnext
    exact Forward.calm h hshielded (hset.trans calm_finalizeClose)
  case isFalse =>
  split at hnext
  case isTrue =>
    cases hnext
    refine Forward.calm h hshielded ((hset'.trans (calm_set ?_)).trans calm_finalizeClose)
    exact ⟨rfl, rfl, fun hfalse => absurd hfalse (by simp), rfl, rfl, rfl, id, id, id, rfl, rfl, id⟩
  case isFalse =>
  have hordered := h.calm hset'
  have hshields := fun a => (hshielded a).calm hset'
  split at hnext <;> cases hnext
  · refine ⟨hordered.set ?_ (hordered.response w) id, .inl fun a => (hshields a).set id⟩
    rw [hself]
    exact { hself ▸ hordered.client w with
      inactive := fun _ => hinactive
      scheduled := fun _ => rfl }
  · refine Forward.activate hordered hshields ?_ ?_ ?_
    · rw [hself]
      exact hinactive
    · rw [hself]
    · rw [hself]
      exact hscheduled

/-- The callback of the second `setImmediate`. -/
theorem Forward.activateLater (h : s.Ordered) (hshielded : ∀ a, s.Shielded a)
    (hnext : s.next (.activateLater w) = some s') : s'.Forward := by
  simp only [Server.next] at hnext
  split at hnext
  case isFalse => cases hnext
  case isTrue hguard =>
  simp only [Bool.and_eq_true, decide_eq_true_eq] at hguard
  cases hnext
  have hclient := h.client w
  have hset : s.Calm (s.set w fun c => { c with activationScheduled := false }) :=
    calm_set ⟨rfl, rfl, id, rfl, rfl, rfl, id, id, fun hfalse => absurd hfalse (by simp), rfl, rfl, id⟩
  refine Forward.activate (h.calm hset) (fun a => (hshielded a).calm hset) ?_ ?_ ?_
  · rw [set_client_self]
    exact hclient.inactive (.inr hguard.2)
  · rw [set_client_self]
    exact hclient.scheduled hguard.2
  · rw [set_client_self]

/-- An event keeps the invariant, when no upgrade is on top of the stack. -/
theorem Forward.nextUser (h : s.Ordered) (hshielded : ∀ a, s.Shielded a) (hheld : s.Held)
    (hhead : ∀ w, s.stack.head? ≠ some (.activation w) ∧ s.stack.head? ≠ some (.writing w))
    {event : Event W K} (hnext : s.next event = some s') : s'.Forward := by
  have hcalm : ∀ s' : Server W K, s.Calm s' → s'.Forward := fun _ => Forward.calm h hshielded
  cases event with
  | upgrade w attachable encrypted response =>
    simp only [Server.next] at hnext
    split_ifs at hnext
    · cases hnext
      exact hcalm _ (Calm.refl s)
    · cases hnext
      refine hcalm _ ((calm_update ?_).trans (calm_push rfl))
      exact fun _ => rfl
  | refuse =>
    simp only [Server.next] at hnext
    split_ifs at hnext
    cases hnext
    exact hcalm _ (calm_push rfl)
  | ret =>
    simp only [Server.next] at hnext
    split at hnext
    case h_1 => cases hnext
    case h_2 frame stack hstack =>
      refine Forward.ret h hshielded hheld hstack hnext fun w => ⟨?_, ?_⟩
      · rintro rfl
        exact (hhead w).1 (by rw [hstack]; rfl)
      · rintro rfl
        exact (hhead w).2 (by rw [hstack]; rfl)
  | throw =>
    simp only [Server.next] at hnext
    split at hnext
    case h_1 => cases hnext
    case h_2 frame stack hstack => exact Forward.throw h hshielded hheld hstack hnext
  | failed =>
    simp only [Server.next] at hnext
    split at hnext
    case h_1 => cases hnext
    case h_2 frame stack hstack =>
      cases frame with
      | activation w => exact absurd (by rw [hstack]; rfl) (hhead w).1
      | writing w => exact absurd (by rw [hstack]; rfl) (hhead w).2
      | replying w =>
        cases hnext
        exact Forward.calm (h.pop hstack) (fun a => (hshielded a).pop hstack (by simp))
          calm_closeNow
      | headers _ | response _ | accepted _ | activated _ | reporting _ | failing _ | releasing _
      | removing _ | notifying _ | sweeping _ | listening => cases hnext
  | wrote pending =>
    simp only [Server.next] at hnext
    split at hnext
    case h_2 => cases hnext
    case h_1 w stack hstack => exact absurd (by rw [hstack]; rfl) (hhead w).2
  | pollFails pending =>
    simp only [Server.next] at hnext
    split at hnext
    case h_2 => cases hnext
    case h_1 w stack hstack => exact absurd (by rw [hstack]; rfl) (hhead w).2
  | socketClosed w => exact Forward.socketClosed h hshielded hnext
  | socketErrors w =>
    simp only [Server.next] at hnext
    split_ifs at hnext
    · cases hnext
      exact hcalm _ (calm_update fun _ => rfl)
    · cases hnext
      refine hcalm _ ((calm_update ?_).trans (calm_push rfl))
      exact fun _ => rfl
  | socketEnds w =>
    simp only [Server.next] at hnext
    split_ifs at hnext
    cases hnext
    refine hcalm _ (calm_set ?_)
    split
    case isTrue hopened => exact calm_closing (by simp [hopened])
    case isFalse => exact Client.Calm.refl _
  | destroyLater w =>
    have hset : s.Calm (s.set w fun c => { c with destroyScheduled := false }) :=
      calm_update fun _ => rfl
    simp only [Server.next] at hnext
    split at hnext
    case isFalse => cases hnext
    case isTrue =>
      split at hnext <;> cases hnext
      · exact hcalm _ (hset.trans (calm_update fun _ => rfl))
      · exact hcalm _ hset
  | activateLater w => exact Forward.activateLater h hshielded hnext
  | peerClose w =>
    simp only [Server.next] at hnext
    split_ifs at hnext <;> cases hnext <;> exact hcalm _ calm_peerClose
  | transportError w =>
    simp only [Server.next] at hnext
    split_ifs at hnext with hruns
    simp only [nativeRuns, Bool.and_eq_true] at hruns
    cases hnext
    exact Forward.failTransport h (fun a _ => hshielded a) hruns.1.1
  | transportEnds w =>
    simp only [Server.next] at hnext
    split_ifs at hnext
    cases hnext
    exact hcalm _ calm_closeNow
  | backpressure w =>
    simp only [Server.next] at hnext
    split_ifs at hnext
    cases hnext
    exact hcalm _ (calm_backpressure.trans calm_closeNow)
  | progress w pending =>
    simp only [Server.next] at hnext
    split_ifs at hnext
    cases hnext
    exact hcalm _ (calm_update fun _ => rfl)
  | nativeClosed w =>
    simp only [Server.next] at hnext
    split_ifs at hnext
    cases hnext
    refine hcalm _ ((calm_update ?_).trans calm_finalizeClose)
    exact fun _ => rfl
  | close w valid =>
    simp only [Server.next] at hnext
    split_ifs at hnext
    cases hnext
    exact hcalm _ (hheld.calm_close valid)
  | terminate w =>
    simp only [Server.next] at hnext
    split_ifs at hnext
    cases hnext
    exact hcalm _ hheld.calm_terminate
  | fail w =>
    simp only [Server.next] at hnext
    split_ifs at hnext
    cases hnext
    exact hcalm _ hheld.calm_fail
  | closeTimeout w =>
    simp only [Server.next] at hnext
    split_ifs at hnext
    · cases hnext
      exact hcalm _ calm_closeNow
    · cases hnext
      exact hcalm _ (calm_update fun _ => rfl)
    · cases hnext
      exact hcalm _ (Calm.refl s)
  | serverClose callback =>
    simp only [Server.next] at hnext
    split_ifs at hnext
    cases hnext
    exact hcalm _ calm_serverClose
  | tick =>
    simp only [Server.next] at hnext
    split at hnext
    case isFalse => cases hnext
    case isTrue =>
    split at hnext
    case h_1 => cases hnext
    case h_2 ticks hticks =>
      cases hnext
      have hrest : s.Calm { s with ticks } := calm_of_eq rfl rfl rfl
      exact hcalm _ (hrest.trans calm_finishClose)
    case h_3 k ticks hticks =>
      cases hnext
      have hrest : s.Calm { s with
          ticks, called := k :: s.called, early := s.early || !s.clients.isEmpty } :=
        calm_of_eq rfl rfl rfl
      exact hcalm _ (hrest.trans (calm_push rfl))

/-- A native method of the upgrade on top of the stack has failed. -/
theorem Ready.fails (h : s.Ready w) (hordered : s.Ordered) (hheld : s.Held)
    (hstack : s.stack = frame :: stack) (hframe : frame = .activation w ∨ frame = .writing w) :
    (({ s with stack } : Server W K).fail w).Forward := by
  have hplain : Frame.Plain frame := by rcases hframe with rfl | rfl <;> exact Frame.plain rfl
  exact Forward.calm (hordered.pop hstack) (h.pop hordered hstack)
    (hheld.pop hstack hplain).calm_fail

/-- `activateTransport` returns zero. -/
theorem Ready.activated (h : s.Ready w) (hordered : s.Ordered) (hheld : s.Held)
    (hstack : s.stack = .activation w :: stack)
    (hresume : ({ s with stack } : Server W K).resume (.activation w) = some s') : s'.Forward := by
  have hpop := hordered.pop hstack
  have hshields := h.pop hordered hstack
  obtain ⟨haccepted, hnative, -, hfinished⟩ :=
    hheld.entered (.activation w) (hstack ▸ List.mem_cons_self ..)
  have hset : ({ s with stack } : Server W K).Calm (({ s with stack } : Server W K).set w fun c =>
      { c with nativeActive := true }) :=
    calm_update fun _ => rfl
  simp only [Server.resume] at hresume
  split at hresume
  case isTrue => cases hresume
  case isFalse hclosing =>
  have hclosed : (s.client w).closed = false := by
    by_contra hclosed
    exact hclosing (hfinished (by simpa using hclosed))
  split at hresume <;> cases hresume
  · have hactive := (hheld.pop hstack (Frame.plain rfl)).setActive (w := w) hclosed haccepted
    exact Forward.calm hpop hshields (hset.trans hactive.calm_fail)
  · have hbelow := (List.pairwise_cons.mp (hstack ▸ hordered.order)).1
    refine Forward.begin (hpop.calm hset)
      (fun a => (hshields a).calm hset) (.writing w) (.inr rfl) (fun g hg => hbelow g hg w (.inl rfl)) ?_ ?_ ?_
    · rw [set_client_self]
      exact hordered.active w (.inl (hstack ▸ List.mem_cons_self ..))
    · rw [set_client_self]
      exact h.connecting
    · rw [set_client_self]
      exact h.unpolled

/-- The response is written, and what is left of it is within `maxBackpressure`. -/
theorem Ready.wrote (h : s.Ready w) (hordered : s.Ordered) (hheld : s.Held)
    (hstack : s.stack = .writing w :: stack) {pending : ℕ}
    (htimer : (s.client w).closeTimer = false)
    (hpending : s.maxBackpressure = 0 ∨ pending ≤ s.maxBackpressure)
    (hclosing : (s.client w).transportClosing = false) :
    (({ s with stack } : Server W K).wrote w pending).Forward := by
  have hset : ({ s with stack } : Server W K).Calm (({ s with stack } : Server W K).set w fun c =>
      { c with pendingBytes := pending }) :=
    calm_update fun _ => rfl
  have hpop := (hordered.pop hstack).calm hset
  have hshields := fun a => (h.pop hordered hstack a).calm hset
  have haccepted := (hheld.entered (.writing w) (hstack ▸ List.mem_cons_self ..)).1
  rw [Server.wrote, if_neg]
  · refine Forward.calm (hpop.set ?_ (hpop.response w) id) (fun a => (hshields a).set id)
      (calm_push rfl)
    have hclient := hpop.client w
    rw [set_client_self] at hclient ⊢
    obtain ⟨hstate, hupgrade⟩ := h.connecting htimer
    exact hclient.opened hstate hupgrade haccepted fun _ => hclosing
  · rw [Bool.and_eq_true, decide_eq_true_eq, decide_eq_true_eq]
    rintro ⟨hmax, hexceeded⟩
    rcases hpending with hzero | hle
    · exact hmax hzero
    · exact absurd hexceeded (by simpa [Server.set] using hle)

omit [DecidableEq W] [DecidableEq K] in
/-- Nothing of an upgrade is below its native method, so it has closed the transport. -/
theorem Shielded.closing (h : s.Shielded w) (hordered : s.Ordered)
    (hstack : s.stack = frame :: stack) (hframe : frame = .activation w ∨ frame = .writing w) :
    (s.client w).transportClosing = true := by
  have hmem : .activation w ∈ s.stack ∨ .writing w ∈ s.stack := by
    rw [hstack]
    rcases hframe with rfl | rfl <;> simp
  have horder := hordered.order
  rw [hstack, List.pairwise_cons] at horder
  refine (h hmem).resolve_right fun hreporting => ?_
  rw [hstack] at hreporting
  rcases List.mem_cons.mp hreporting with heq | hbelow
  · rcases hframe with rfl | rfl <;> cases heq
  · exact (horder.1 _ hbelow w hframe).2.2 rfl

/-- A native method on top of the stack can only fail when the transport is closing. -/
theorem Forward.nextClosing (h : s.Ordered) (hshielded : ∀ a, s.Shielded a) (hheld : s.Held)
    (hstack : s.stack = frame :: stack) (hframe : frame = .activation w ∨ frame = .writing w)
    {event : Event W K} (hevent : s.Undisturbed event) (hnext : s.next event = some s') :
    s'.Forward := by
  have hplain : Frame.Plain frame := by rcases hframe with rfl | rfl <;> exact Frame.plain rfl
  have hclosing := (hshielded w).closing h hstack hframe
  have huser : s.userRuns = false := by
    rw [userRuns, hstack]
    rcases hframe with rfl | rfl <;> rfl
  have hnative : ∀ a, s.nativeRuns a = false := by
    intro a
    rw [nativeRuns, hstack]
    by_cases haw : a = w
    · simp [haw, hclosing]
    · rcases hframe with rfl | rfl <;> simp [Ne.symm haw]
  have hempty : s.stack ≠ [] := by simp [hstack]
  have hcalls : ∀ a, s.callable a = false := fun a => by simp [callable, huser]
  cases event with
  | upgrade _ _ _ _ | refuse | serverClose _ => simp [Server.next, huser] at hnext
  | socketClosed a | socketErrors a | socketEnds a | close a _ | terminate a | fail a =>
    simp [Server.next, hcalls] at hnext
  | destroyLater _ | activateLater _ | nativeClosed _ | closeTimeout _ | tick =>
    simp [Server.next, hempty] at hnext
  | peerClose _ | transportError _ | transportEnds _ | backpressure _ | progress _ _ =>
    simp [Server.next, hnative, hcalls] at hnext
  | ret =>
    simp only [Server.next, hstack] at hnext
    rcases hframe with rfl | rfl
    · simp [Server.resume, hclosing] at hnext
    · have hunpolled := hevent w (by rw [hstack]; rfl)
      simp [Server.resume, hunpolled] at hnext
  | throw =>
    simp only [Server.next, hstack] at hnext
    rcases hframe with rfl | rfl <;> cases hnext
  | failed =>
    simp only [Server.next, hstack] at hnext
    have hcalm := (hheld.pop hstack hplain).calm_fail (w := w)
    have hfails := Forward.calm (h.pop hstack) (fun a => (hshielded a).pop hstack
      (by rcases hframe with rfl | rfl <;> simp)) hcalm
    rcases hframe with rfl | rfl
    · cases hnext
      exact hfails
    · simp only [Server.failed] at hnext
      split_ifs at hnext
      cases hnext
      exact hfails
  | wrote pending =>
    simp only [Server.next] at hnext
    split at hnext
    case h_2 => cases hnext
    case h_1 a rest hwriting =>
      have haw : a = w := by
        rcases hframe with rfl | rfl <;> cases hstack.symm.trans hwriting
        rfl
      simp [haw, hclosing] at hnext
  | pollFails pending =>
    simp only [Server.next] at hnext
    split at hnext
    case h_2 => cases hnext
    case h_1 a rest hwriting =>
      have haw : a = w := by
        rcases hframe with rfl | rfl <;> cases hstack.symm.trans hwriting
        rfl
      simp [haw, hclosing] at hnext

/-- An event keeps the invariant, when an upgrade is on top of the stack. -/
theorem Ready.next (h : s.Ready w) (hordered : s.Ordered) (hheld : s.Held) {event : Event W K}
    (hevent : s.Undisturbed event) (hnext : s.next event = some s') : s'.Forward := by
  obtain ⟨frame, stack, hstack, hframe⟩ : ∃ frame stack, s.stack = frame :: stack ∧
      (frame = .activation w ∨ frame = .writing w) := by
    rcases h.head with hhead | hhead
    · obtain ⟨stack, hstack⟩ := List.head?_eq_some_iff.mp hhead
      exact ⟨_, stack, hstack, .inl rfl⟩
    · obtain ⟨stack, hstack⟩ := List.head?_eq_some_iff.mp hhead
      exact ⟨_, stack, hstack, .inr rfl⟩
  have huser : s.userRuns = false := by
    rw [userRuns, hstack]
    rcases hframe with rfl | rfl <;> rfl
  have hnative : ∀ a, s.nativeRuns a = true → a = w := by
    intro a ha
    rw [nativeRuns, hstack] at ha
    rcases hframe with rfl | rfl
    · simpa [eq_comm] using ((Bool.and_eq_true ..).mp ha).2
    · simpa [eq_comm] using ((Bool.and_eq_true ..).mp ha).2
  have hempty : s.stack ≠ [] := by simp [hstack]
  have hcalls : ∀ a, s.callable a = false := fun a => by simp [callable, huser]
  cases event with
  | upgrade _ _ _ _ | refuse | serverClose _ => simp [Server.next, huser] at hnext
  | socketClosed a | socketErrors a | socketEnds a | close a _ | terminate a | fail a =>
    simp [Server.next, hcalls] at hnext
  | destroyLater _ | activateLater _ | nativeClosed _ | closeTimeout _ | tick =>
    simp [Server.next, hempty] at hnext
  | ret =>
    simp only [Server.next, hstack] at hnext
    rcases hframe with rfl | rfl
    · exact h.activated hordered hheld hstack hnext
    · simp [Server.resume, h.unpolled] at hnext
  | throw =>
    simp only [Server.next, hstack] at hnext
    rcases hframe with rfl | rfl <;> cases hnext
  | failed =>
    simp only [Server.next, hstack] at hnext
    have hfails := h.fails hordered hheld hstack hframe
    rcases hframe with rfl | rfl
    · cases hnext
      exact hfails
    · simp only [Server.failed] at hnext
      split_ifs at hnext
      cases hnext
      exact hfails
  | wrote pending =>
    simp only [Server.next] at hnext
    split at hnext
    case h_2 => cases hnext
    case h_1 a rest hwriting =>
      split_ifs at hnext with hguard
      cases hnext
      simp only [Bool.or_eq_true, not_or, Bool.not_eq_true] at hguard
      have haw : a = w := by
        rcases hframe with rfl | rfl <;> cases hstack.symm.trans hwriting
        rfl
      subst haw
      obtain ⟨htimer, hpending⟩ := hevent a (by rw [hwriting]; rfl)
      exact h.wrote hordered hheld hwriting htimer hpending hguard.1
  | pollFails pending =>
    simp only [Server.next] at hnext
    split at hnext
    case h_2 => cases hnext
    case h_1 a rest hwriting =>
      split_ifs at hnext
      cases hnext
      have haw : a = w := by
        rcases hframe with rfl | rfl <;> cases hstack.symm.trans hwriting
        rfl
      subst haw
      have hactive := hordered.active a (.inr (.inl (hwriting ▸ List.mem_cons_self ..)))
      have hset := hordered.set (w := a)
        (f := fun c => { c with pendingBytes := pending, pollFailed := true })
        { hordered.client a with polled := fun _ => hactive } (hordered.response a) id
      refine Forward.failTransport hset (fun b hb => (h.others b hb).set id) ?_
      rw [set_client_self]
      exact hactive
  | peerClose a =>
    simp only [Server.next, hcalls] at hnext
    split_ifs at hnext with htransport hruns
    · simp only [Bool.and_eq_true, decide_eq_true_eq] at hruns
      have haw := hnative a hruns.1.1
      subst haw
      cases hnext
      refine ⟨hordered.calm calm_peerClose, .inr ⟨a, ⟨h.head, fun htimer => ?_,
        (calm_peerClose.client a).pollFailed.trans h.unpolled, fun b hb =>
        (h.others b hb).calm calm_peerClose⟩⟩⟩
      rw [set_client_self] at htimer ⊢
      split at htimer
      case isTrue hclosed =>
        rw [if_pos hclosed]
        exact h.connecting htimer
      case isFalse => cases htimer
    · contradiction
  | transportError a =>
    simp only [Server.next] at hnext
    split_ifs at hnext with hruns
    cases hnext
    have haw := hnative a hruns
    subst haw
    simp only [nativeRuns, Bool.and_eq_true] at hruns
    exact Forward.failTransport hordered h.others hruns.1.1
  | transportEnds a =>
    simp only [Server.next] at hnext
    split_ifs at hnext with hruns
    cases hnext
    have haw := hnative a hruns
    subst haw
    exact h.closes hordered calm_closeNow closeNow_closing
  | backpressure a =>
    simp only [Server.next] at hnext
    split_ifs at hnext with hruns
    cases hnext
    simp only [Bool.and_eq_true] at hruns
    have haw := hnative a hruns.1.1
    subst haw
    exact h.closes hordered (calm_backpressure.trans calm_closeNow) closeNow_closing
  | progress a pending =>
    simp only [Server.next] at hnext
    split_ifs at hnext with hruns
    cases hnext
    have hset : s.Calm (s.set a fun c => { c with pendingBytes := pending }) :=
      calm_update fun _ => rfl
    refine ⟨hordered.calm hset, .inr ⟨w, ⟨h.head, ?_,
      (hset.client w).pollFailed.trans h.unpolled, fun b hb => (h.others b hb).calm hset⟩⟩⟩
    by_cases haw : w = a
    · subst haw
      rw [set_client_self]
      exact h.connecting
    · rw [set_client_of_ne haw]
      exact h.connecting

/-- `activate` opens a connection that is closing. -/
theorem Forward.disturbed (h : s.Ordered) (hheld : s.Held) (hstack : s.stack = .writing w :: stack)
    (pending : ℕ) (hdisturbed : (s.client w).closeTimer = true ∨
      (s.maxBackpressure ≠ 0 ∧ s.maxBackpressure < pending)) :
    ((({ s with stack } : Server W K).wrote w pending).client w).backwards = true ∨
      ((({ s with stack } : Server W K).wrote w pending).client w).miscalled = true := by
  have hnative := (hheld.entered (.writing w) (hstack ▸ List.mem_cons_self ..)).2.1
  have hbackwards : ∀ c : Client, c.readyState = .closing ∨ c.readyState = .closed →
      c.opened.backwards = true := by
    rintro c (hstate | hstate) <;>
      simp [Client.opened, Client.setReadyState, hstate, rank]
  have hmiscalled : ∀ c : Client, c.nativeTransport = true → c.transportClosing = true →
      c.opened.miscalled = true := by
    intro c hnative hclosing
    simp [Client.opened, Client.setReadyState, hnative, hclosing]
  rw [Server.wrote]
  split
  case isTrue =>
    right
    rw [push_client, set_client_self]
    refine hmiscalled _ ?_ closeNow_closing
    rw [closeNow_field Client.nativeTransport fun _ => rfl,
      (calm_backpressure.client w).nativeTransport, set_client_self]
    exact hnative
  case isFalse hfits =>
    left
    rw [push_client, set_client_self, set_client_self]
    refine hbackwards _ ((h.client w).timer (hdisturbed.resolve_right fun hexceeded => hfits ?_))
    rw [Bool.and_eq_true, decide_eq_true_eq, decide_eq_true_eq]
    exact hexceeded

/-- It calls back with a closing transport after `uv_poll_start` has failed. -/
theorem Forward.miscalls (h : s.Forward) (hheld : s.Held) (hstack : s.stack = .writing w :: stack)
    (hpolled : (s.client w).pollFailed = true) :
    (((({ s with stack } : Server W K).set w Client.opened).push (.activated w)).client
      w).miscalled = true := by
  have hnative := (hheld.entered (.writing w) (hstack ▸ List.mem_cons_self ..)).2.1
  have hclosing : (s.client w).transportClosing = true := by
    rcases h.shielded with hshielded | ⟨a, hready⟩
    · exact (hshielded w).closing h.toOrdered hstack (.inr rfl)
    · have haw : a = w := by
        have hhead := hready.head
        rw [hstack] at hhead
        rcases hhead with hhead | hhead <;> cases hhead
        rfl
      subst haw
      cases hpolled.symm.trans hready.unpolled
  rw [push_client, set_client_self]
  simp [Client.opened, Client.setReadyState, hnative, hclosing]

end Server

/-- What is promised about the upgrade of a connection. -/
structure Client.MovesForward (c : Client) : Prop where
  /-- `readyState` never goes back. -/
  backwards : c.backwards = false
  /-- The callback is called once at most, with an open connection. -/
  calls : c.upgradeCalls ≤ 1
  miscalled : c.miscalled = false

/-- A run in which nothing disturbs an upgrade. -/
abbrev Server.ReachesUndisturbed (s : Server W K) : Prop :=
  Transition.Reachable (fun s : Server W K => ∃ maxBackpressure, s = { maxBackpressure })
    (fun s event s' => s.next event = some s' ∧ s.Undisturbed event) s

theorem Server.ReachesUndisturbed.forward (h : s.ReachesUndisturbed) : s.Held ∧ s.Forward := by
  refine h.invariant (P := fun s : Server W K => s.Held ∧ s.Forward) ?_ ?_
  · rintro s ⟨maxBackpressure, rfl⟩
    refine ⟨Server.Reaches.held (.start ⟨maxBackpressure, rfl⟩), ⟨⟨?_, ?_, ?_, fun w => ?_⟩,
      .inl fun w => ?_⟩⟩
    · exact List.Pairwise.nil
    · simp
    · simp
    · constructor <;> simp
    · simp [Server.Shielded]
  · rintro s event s' ⟨hheld, hforward⟩ ⟨hnext, hevent⟩
    refine ⟨hheld.next hnext, ?_⟩
    rcases hforward.shielded with hshielded | ⟨w, hready⟩
    · by_cases hhead : ∀ w, s.stack.head? ≠ some (.activation w) ∧
          s.stack.head? ≠ some (.writing w)
      · exact Server.Forward.nextUser hforward.toOrdered hshielded hheld hhead hnext
      · simp only [not_forall, not_and_or, not_not] at hhead
        obtain ⟨w, hw⟩ := hhead
        rcases hw with hw | hw
        · obtain ⟨stack, hstack⟩ := List.head?_eq_some_iff.mp hw
          exact Server.Forward.nextClosing hforward.toOrdered hshielded hheld hstack
            (.inl rfl) hevent hnext
        · obtain ⟨stack, hstack⟩ := List.head?_eq_some_iff.mp hw
          exact Server.Forward.nextClosing hforward.toOrdered hshielded hheld hstack
            (.inr rfl) hevent hnext
    · exact hready.next hforward.toOrdered hheld hevent hnext

omit [DecidableEq W] [DecidableEq K] in
theorem Server.Forward.movesForward (h : s.Forward) (w : W) : (s.client w).MovesForward :=
  ⟨(h.client w).backwards, (h.client w).calls, (h.client w).miscalled⟩

/-- An upgrade moves forward in every state of a run in which nothing disturbs it, and goes on
so exactly when the next step does not disturb it. -/
theorem upgrade_movesForward (h : s.ReachesUndisturbed) :
    (∀ w, (s.client w).MovesForward) ∧
      ∀ event s', s.next event = some s' →
        ((∀ w, (s'.client w).MovesForward) ↔ s.Undisturbed event) := by
  obtain ⟨hheld, hforward⟩ := h.forward
  refine ⟨hforward.movesForward, fun event s' hnext => ⟨fun hmoves => ?_, fun hevent => ?_⟩⟩
  · cases event with
    | wrote pending =>
      intro w hhead
      obtain ⟨stack, hstack⟩ := List.head?_eq_some_iff.mp hhead
      have hguard := hnext
      simp only [Server.next, hstack] at hguard
      split_ifs at hguard
      cases hguard
      have hundisturbed := mt (Server.Forward.disturbed hforward.toOrdered hheld hstack
        pending) (by
          rw [not_or, Bool.not_eq_true, Bool.not_eq_true]
          exact ⟨(hmoves w).backwards, (hmoves w).miscalled⟩)
      simp only [not_or, Bool.not_eq_true, not_and, not_lt] at hundisturbed
      exact ⟨hundisturbed.1, (eq_or_ne s.maxBackpressure 0).imp_right hundisturbed.2⟩
    | ret =>
      intro w hhead
      obtain ⟨stack, hstack⟩ := List.head?_eq_some_iff.mp hhead
      refine Bool.of_not_eq_true fun hpolled => ?_
      have hmiscalls := hforward.miscalls hheld hstack hpolled
      simp only [Server.next, hstack, Server.resume, hpolled, if_true] at hnext
      cases hnext
      exact absurd ((hmoves w).miscalled.symm.trans hmiscalls) (by decide)
    | _ => trivial
  · have hnext' : s'.ReachesUndisturbed := .next h ⟨hnext, hevent⟩
    exact hnext'.forward.2.movesForward

/-- The response is written at once, and the callback is called. -/
theorem upgrade_movesForward_complete : ∃ s : Server Unit Unit, s.ReachesUndisturbed ∧
    (s.client ()).upgradeCalls = 1 ∧ (s.client ()).MovesForward := by
  have h₀ : Server.ReachesUndisturbed ({ maxBackpressure := 1 } : Server Unit Unit) :=
    .start ⟨1, rfl⟩
  have h₁ := Transition.Reachable.next (a := Event.upgrade () true false 2) h₀ ⟨rfl, trivial⟩
  have h₂ := Transition.Reachable.next (a := Event.ret) h₁ ⟨rfl, fun _ h => by cases h⟩
  have h₃ := Transition.Reachable.next (a := Event.destroyLater ()) h₂ ⟨rfl, trivial⟩
  have h₄ := Transition.Reachable.next (a := Event.socketClosed ()) h₃ ⟨rfl, trivial⟩
  have h₅ := Transition.Reachable.next (a := Event.ret) h₄ ⟨rfl, fun _ h => by cases h⟩
  have h₆ := Transition.Reachable.next (a := Event.wrote 0) h₅
    ⟨rfl, fun _ _ => ⟨rfl, .inr (by decide)⟩⟩
  exact ⟨_, h₆, rfl, (upgrade_movesForward h₆).1 ()⟩

/-- A response that exceeds `maxBackpressure` opens a connection that is closing. -/
theorem upgrade_reopens :
    ¬ ∀ s : Server Unit Unit, s.Reaches → ∀ w, (s.client w).MovesForward := by
  intro hclaim
  have hends : ((Transition.run Server.next ({ maxBackpressure := 1 } : Server Unit Unit)
      [.upgrade () true false 2, .ret, .destroyLater (), .socketClosed (), .ret, .wrote 2]).map
        fun s => ((s.client ()).backwards, (s.client ()).miscalled)) = some (true, true) := by
    decide
  obtain ⟨s, hs, hresult⟩ := Option.map_eq_some_iff.mp hends
  have hreaches : s.Reaches := Transition.Reachable.run (fun _ _ _ => id) (.start ⟨1, rfl⟩) hs
  have hbackwards := (hclaim s hreaches ()).backwards
  exact absurd ((Prod.mk.inj hresult).1.symm.trans hbackwards) (by decide)

end Eiows.Lifecycle
