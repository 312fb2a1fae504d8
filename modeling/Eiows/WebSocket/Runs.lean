import Eiows.WebSocket.Receiving

/-!
# Runs of a connection

The application may call the connection wherever its code runs, to any depth. The
functions that are called from below meet their demands at every depth, so every turn of
the event loop leads from one waiting state to another, and every question of a run is
asked in a state of the invariant.
-/

namespace Eiows

open Interaction NativeTransport

variable {Z : Zlib} {k : Callees Z} {c : Connection Z}

/-- A new callback of the application is owed. -/
theorem Settled.addCallback (h : Settled c) :
    Settled (c.mapLog fun log =>
      { log with callbacks := c.log.callbacks + 1, owed := c.log.callbacks :: log.owed }) := by
  have hnew : c.log.callbacks ∉ c.log.owed := fun hmem => (h.fresh _ hmem).false
  exact { h with
    charged := by
      intro hreported b
      have hcharge := h.charged hreported b
      unfold Connection.charges at hcharge ⊢
      show (c.log.fired.map (·.1)).count b + (c.log.callbacks :: c.log.owed).count b +
        (deferredCallbacks c.transport.queue).count b + c.socket.callbacks.count b =
          if b < c.log.callbacks + 1 then 1 else 0
      rw [List.count_cons]
      rcases Nat.lt_trichotomy b c.log.callbacks with hlt | heq | hgt
      · have hne : ¬(c.log.callbacks == b) = true := by simpa using Nat.ne_of_gt hlt
        rw [if_pos hlt] at hcharge
        rw [if_neg hne, if_pos (Nat.lt_succ_of_lt hlt)]
        omega
      · rw [if_neg (Nat.not_lt.mpr heq.ge)] at hcharge
        rw [if_pos (by simp [heq]), if_pos (heq ▸ Nat.lt_succ_self _)]
        omega
      · have hne : ¬(c.log.callbacks == b) = true := by simpa using Nat.ne_of_lt hgt
        rw [if_neg (Nat.not_lt.mpr hgt.le)] at hcharge
        rw [if_neg hne, if_neg (Nat.not_lt.mpr hgt)]
        omega
    fresh := by
      intro b hmem
      show b < c.log.callbacks + 1
      rcases List.mem_cons.mp hmem with rfl | hold
      · exact Nat.lt_succ_self _
      · exact Nat.lt_succ_of_lt (h.fresh b hold)
    nodup := List.nodup_cons.mpr ⟨hnew, h.nodup⟩ }

/-- A call of the application with a new callback, which it passes on. -/
private theorem meets_withCallback (h : Settled c) {f : Option WriteCallback → Run Z (Option Unit)}
    (hf : ∀ {c₁ : Connection Z} (callback : Option WriteCallback), Settled c₁ →
      c₁.log.owed = callback.toList ++ c.log.owed →
        (f callback c₁).Meets (contract Z) fun _ c' => Settles c.log.owed c₁ c')
    (hasCallback : Bool) :
    ((newCallback hasCallback >>= fun callback => do let _ ← f callback : Run Z Unit) c).Meets
      (contract Z) fun _ c' => Leaves none c c' := by
  unfold newCallback
  simp only [Program.meets_bind, Program.meets_get, Program.meets_ite, Program.meets_pure,
    meets_modifyLog]
  split
  · refine (hf (some c.log.callbacks) h.addCallback rfl).mono fun _ c' hsettles => ?_
    have hrely : Rely c (c.mapLog fun log =>
        { log with callbacks := c.log.callbacks + 1, owed := c.log.callbacks :: log.owed }) :=
      { Rely.refl c with callbacks := Nat.le_succ _ }
    exact ⟨hsettles.settled, hrely.trans hsettles.rely, hsettles.silent, hsettles.owed.symm⟩
  · exact (hf none h rfl).mono fun _ c' hsettles => hsettles.leaves rfl

/-- A call of the application. -/
theorem meets_perform (hk : k.Sound) (h : Settled c) (action : Action) :
    (perform k action c).Meets (contract Z) fun _ c' => Leaves none c c' := by
  cases action with
  | send message binary compress hasCallback =>
    exact meets_withCallback h (fun _ hsettled howed =>
      WebSocket.meets_send hk hsettled message binary compress howed) hasCallback
  | sendFrame list hasCallback =>
    exact meets_withCallback h (fun _ hsettled howed =>
      WebSocket.meets_sendFrameList hk hsettled list howed) hasCallback
  | close code reason =>
    exact Program.meets_bind.mpr (WebSocket.meets_close hk h code reason)
  | terminate =>
    exact Program.meets_bind.mpr ((WebSocket.meets_terminate_webSocket hk h).mono
      fun _ _ hleaves => hleaves.1)

/-- Code of the application may run in every settled state, and leaves one. -/
theorem meets_application (hk : k.Sound) (h : Settled c) {listener : Listener}
    (hoccasion : listener.Occasion c) :
    (application k listener c).Meets (contract Z) fun _ c' => Leaves none c c' := by
  unfold application
  refine Program.meets_iterate (I := fun _ c' => Leaves none c c') ?_ _ (.refl h)
  intro _ c₁ hleaves
  simp only [Program.meets_bind]
  refine meets_ask.mpr ⟨⟨hleaves.settled, hoccasion.persists hleaves.rely.toPersists⟩,
    fun reply _ => ?_⟩
  cases reply with
  | call action =>
    simp only [Program.meets_bind, Program.meets_pure]
    exact (meets_perform hk hleaves.settled action).mono fun _ _ hleaves' => hleaves.trans hleaves'
  | returned => exact hleaves
  | threw => exact hleaves

/-- The functions called from below meet their demands, by induction on the depth of calls. -/
theorem callees_sound (Z : Zlib) (n : ℕ) : (callees Z n).Sound := by
  induction n with
  | zero =>
    exact ⟨fun _ _ _ _ => trivial, fun _ _ _ _ _ => trivial, fun _ _ _ _ _ => trivial,
      fun _ => trivial⟩
  | succ n ih =>
    exact ⟨fun _ _ h hoccasion => meets_application ih h hoccasion,
      fun _ _ hends h hrecorded => WebSocket.meets_ownerCall ih hends h hrecorded,
      fun _ _ hends h htimely => WebSocket.meets_ownerCall_ends ih hends h htimely,
      fun h => meets_maybeFinishPeerClose ih h⟩

theorem Waiting.leaves {c' : Connection Z} (h : Waiting c) (h' : Leaves none c c') : Waiting c' where
  toSettled := h'.settled
  noneOwed := h'.owed.symm.trans h.noneOwed
  notFlushing := h'.rely.flushing.trans h.notFlushing
  notReporting := h'.rely.reporting.trans h.notReporting
  released := by
    intro hclosing
    by_contra hopen
    obtain ⟨hclosing₀, hopen₀⟩ := h'.rely.finished hclosing (by simpa using hopen)
    exact absurd ((h.released hclosing₀).symm.trans hopen₀) (by decide)

/-- Between two turns an active transport works. -/
theorem Waiting.works (h : Waiting c) (hactive : c.transport.active = true) : Native c :=
  ⟨h.toPausing, h.notReporting, hactive⟩

/-- A callback of Node that leaves the connection waiting. -/
private theorem meets_nodeCallback (hk : k.Sound) {f : Run Z (Option Unit)}
    (hf : (f c).Meets (contract Z) fun _ c' => Waiting c') :
    (nodeCallback k f c).Meets (contract Z) fun _ c' => Waiting c' := by
  unfold nodeCallback
  exact Program.meets_bind.mpr (WebSocket.meets_makeCallback hk hf (fun _ h => h.toSettled)
    fun _ _ h hleaves => h.leaves hleaves)

private theorem meets_nodeCallback_leaves (hk : k.Sound) (h : Waiting c) {f : Run Z (Option Unit)}
    (hf : (f c).Meets (contract Z) fun _ c' => Leaves none c c') :
    (nodeCallback k f c).Meets (contract Z) fun _ c' => Waiting c' :=
  meets_nodeCallback hk (hf.mono fun _ _ hleaves => h.leaves hleaves)

/-- The close deadline has passed. -/
private theorem meets_onCloseTimeout (hk : k.Sound) (h : Settled c) :
    (onCloseTimeout k c).Meets (contract Z) fun _ c' => Leaves none c c' := by
  have htimer := h.leaves_timer false
  unfold onCloseTimeout
  simp only [Program.meets_bind, Program.meets_get, Program.meets_ite, Program.meets_pure,
    meets_modifyWebSocket, meets_modifySocket]
  split
  · next howned =>
    refine (meets_terminate hk htimer.settled.closable (Bool.and_eq_true _ _ ▸ howned).1).mono ?_
    rintro _ c' ⟨hleaves, -⟩
    exact htimer.trans hleaves
  · split
    · exact htimer.trans (htimer.settled.leaves_mapSocket c.socket.ended true)
    · exact htimer

/-- The end of a write to the Node socket, whose frame was handed over in full. -/
theorem Settled.socketWritten (h : Settled c) {index : ℕ} {callback : WriteCallback}
    (hget : c.socket.callbacks[index]? = some callback) (ok : Bool) :
    Leaves none c ((c.mapSocket fun socket =>
      { socket with callbacks := socket.callbacks.eraseIdx index }).mapLog
        (Log.fire (some callback) ok)) := by
  have hindex : index < c.socket.callbacks.length := (List.getElem?_eq_some_iff.mp hget).1
  have hsub : ∀ b ∈ c.socket.callbacks.eraseIdx index, b ∈ c.socket.callbacks := fun b hmem =>
    List.mem_of_mem_eraseIdx hmem
  have hcount : ∀ b, c.socket.callbacks.count b =
      (c.socket.callbacks.eraseIdx index).count b + if callback == b then 1 else 0 := by
    intro b
    rw [← (List.getElem_cons_eraseIdx_perm hindex).count_eq b, List.count_cons,
      (List.getElem?_eq_some_iff.mp hget).2]
  refine ⟨{ h with
    charged := ?_
    paid := ?_
    handed := fun b hmem => h.handed b (hsub b hmem)
    native := fun hnative => ⟨(h.native hnative).1, by
      show c.socket.callbacks.eraseIdx index = []
      rw [(h.native hnative).2]
      rfl⟩
    drained := fun hclosed => ⟨(h.drained hclosed).1, by
      show c.socket.callbacks.eraseIdx index = []
      rw [(h.drained hclosed).2]
      rfl⟩ }, { Rely.refl c with fired := List.prefix_append _ _ }, fun hsent => ⟨hsent, id⟩, rfl⟩
  · intro hreported b
    have hcharge := h.charged hreported b
    unfold Connection.charges at hcharge ⊢
    have hfired : ((c.log.fired ++ [(callback, ok)]).map (·.1)).count b =
        (c.log.fired.map (·.1)).count b + if callback == b then 1 else 0 := by
      simp [List.count_singleton]
    have hleft := hcount b
    show ((c.log.fired ++ [(callback, ok)]).map (·.1)).count b + c.log.owed.count b +
      (deferredCallbacks c.transport.queue).count b +
        (c.socket.callbacks.eraseIdx index).count b = if b < c.log.callbacks then 1 else 0
    omega
  · intro b hfired
    rcases List.mem_append.mp hfired with hold | hnew
    · exact h.paid b hold
    · obtain ⟨rfl, -⟩ := Prod.mk.inj (List.mem_singleton.mp hnew)
      exact .inr (.inl (h.handed b (List.mem_of_getElem? hget)))

/-- One turn of the event loop. -/
theorem meets_turn (hk : k.Sound) (h : Waiting c) :
    (turn k c).Meets (contract Z) fun _ c' => Waiting c' := by
  have hnative : ∀ {c' : Connection Z}, Serves c c' → Waiting c' := fun hserves =>
    h.leaves ⟨hserves.settled, hserves.rely, hserves.silent, hserves.owed⟩
  unfold turn
  simp only [Program.meets_bind, Program.meets_get]
  refine meets_ask.mpr ⟨h, fun event _ => ?_⟩
  cases event with
  | poll ok readable writable =>
    simp only [Program.meets_ite, Program.meets_pure]
    split
    · next hactive =>
      have hactive := (Bool.and_eq_true _ _ ▸ hactive).1
      exact (meets_poll hk (h.works hactive) h.guarded ok readable writable).mono
        fun _ _ hserves => hnative hserves
    · exact h
  | pollClosed =>
    simp only [Program.meets_ite, Program.meets_pure]
    split
    · next hpolled =>
      exact (meets_onPollClosed hk h.toSettled (h.polled hpolled)).mono fun _ _ hleaves =>
        h.leaves hleaves
    · exact h
  | closeTimeout =>
    simp only [Program.meets_ite, Program.meets_pure]
    split
    · exact meets_nodeCallback_leaves hk h (meets_onCloseTimeout hk h.toSettled)
    · exact h
  | turn => exact meets_nodeCallback_leaves hk h (hk.application .turn h.toSettled trivial)
  | socketData chunk ne lt =>
    simp only [Program.meets_ite, Program.meets_pure]
    split
    · next hpresent =>
      refine meets_nodeCallback_leaves hk h (WebSocket.meets_consume hk h.toSettled ?_ chunk)
      intro hnative
      exact absurd ((h.toStable.native hnative).1.symm.trans hpresent) (by decide)
    · exact h
  | socketEnd =>
    simp only [Program.meets_ite, Program.meets_pure]
    split
    · exact meets_nodeCallback_leaves hk h (WebSocket.meets_onSocketEnd h.toSettled)
    · exact h
  | socketError =>
    simp only [Program.meets_ite, Program.meets_pure]
    split
    · next hpresent =>
      refine meets_nodeCallback_leaves hk h (WebSocket.meets_onSocketError hk h.toSettled ?_)
      by_contra hnative
      have habsent := (h.toStable.native (by simpa using hnative)).1
      exact absurd (habsent.symm.trans hpresent) (by decide)
    · exact h
  | socketClose =>
    simp only [Program.meets_ite, Program.meets_pure, Program.meets_bind, meets_modifySocket]
    split
    · next hdrained =>
      have hdrained : c.socket.present = true ∧ c.socket.callbacks = [] := by simpa using hdrained
      have hrely : Rely c (c.mapSocket fun socket => { socket with destroyed := true, closed := true }) :=
        { Rely.refl c with }
      refine meets_nodeCallback hk (Comm.Meets.mono (WebSocket.meets_finalizeClose_of hk ?_ ?_) ?_)
      · exact fun hclosed => { h.toSettled with drained := fun _ => ⟨hclosed, hdrained.2⟩ }
      · exact fun hopen => ⟨{ h.toSettled.closable.finalised with
          drained := fun _ => ⟨rfl, hdrained.2⟩ }, h.external hopen, h.told⟩
      · rintro _ c' ⟨hleaves, -⟩
        exact h.leaves ⟨hleaves.settled, hrely.trans hleaves.rely, hleaves.silent, hleaves.owed⟩
    · exact h
  | socketWritten index error =>
    unfold onSocketWritten
    simp only [Program.meets_bind, Program.meets_get]
    cases hget : c.socket.callbacks[index]? with
    | none => exact h
    | some callback =>
      simp only [Program.meets_bind, meets_modifySocket, meets_modifyLog]
      have hwritten := h.toSettled.socketWritten hget (!error)
      exact meets_nodeCallback_leaves hk (h.leaves hwritten) (hk.application
        (.writeCallback callback error) hwritten.settled
          (List.mem_append_right _ (List.mem_singleton_self _)))

/-- The WebSocket becomes `OPEN`, for better or worse. When the session has not ended by
then, it has sent no Close frame. -/
theorem Waiting.opened (h : Waiting c) (hactive : c.transport.active = true)
    (hnative : c.webSocket.nativeTransport = true) (honTime : c.log.openedLate = false) :
    Waiting { c with
      webSocket := { c.webSocket with upgradePending := false, readyState := .opened }
      log := { c.log with openedLate := c.session.isClosing } } := by
  have hlate : c.session.isClosing = false →
      c.session.session.closing = false ∧ c.session.session.closeSent = false := fun hclosing =>
    Bool.or_eq_false_iff.mp hclosing
  exact { h with
    orderly := fun _ => h.orderly honTime
    late := fun _ => hnative
    quiet := fun _ hinactive => absurd (hactive.symm.trans hinactive) (by decide)
    graceful := fun hclosing hgraceful => by
      exact absurd ((h.requested (.inr hgraceful)).symm.trans (hlate hclosing).1) (by decide)
    closed := fun hclosed => by cases hclosed
    shut := fun hfallback => absurd (hnative.symm.trans hfallback) (by decide)
    upgrading := fun hpending => by cases hpending
    upgraded := fun _ hconnecting => by cases hconnecting
    reporting := fun hreporting => absurd (h.notReporting.symm.trans hreporting) (by decide)
    guarded := fun hclosing hqueued => by
      exact absurd ((h.closeSent hqueued).symm.trans (hlate hclosing).2) (by decide) }

/-- On the fallback driver nothing has been sent by then. -/
theorem Waiting.openedFallback (h : Waiting c) (hfallback : c.webSocket.nativeTransport = false)
    (hlive : c.webSocket.closed = false) (hnone : ¬c.CloseQueued)
    (hgraceful : c.transport.gracefulCloseRequested = false) :
    Waiting (c.mapWebSocket fun ws =>
      { ws with upgradePending := false, readyState := .opened }) :=
  { h with
    quiet := fun hnative => absurd (hnative.symm.trans hfallback) (by decide)
    graceful := fun _ hrequested => absurd (hrequested.symm.trans hgraceful) (by decide)
    closed := fun hclosed => by cases hclosed
    shut := fun _ hclosed => absurd (hclosed.symm.trans hlive) (by decide)
    upgrading := fun hpending => by cases hpending
    upgraded := fun _ hconnecting => by cases hconnecting
    reporting := fun hreporting => absurd (h.notReporting.symm.trans hreporting) (by decide)
    guarded := fun _ hqueued => absurd hqueued hnone }

namespace WebSocket

/-- The callback of the upgrade, and the bytes that came with it. -/
private theorem meets_upgraded (hk : k.Sound) (h : Waiting c)
    (hactive : c.webSocket.nativeTransport = true → c.transport.active = true) (upgradeHead : Bytes) :
    (upgraded k upgradeHead c).Meets (contract Z) fun _ c' => Leaves none c c' := by
  unfold upgraded
  refine Program.meets_bind.mpr ((hk.application .upgrade h.toSettled trivial).mono ?_)
  intro returned c₁ hleaves
  cases returned with
  | none => exact hleaves
  | some _ =>
    simp only [Program.meets_ite, Program.meets_pure]
    split
    · refine (meets_consume hk hleaves.settled (fun hnative => ?_) upgradeHead).mono ?_
      · exact (h.leaves hleaves).works
          (hleaves.rely.active (hactive (hleaves.rely.nativeTransport.symm.trans hnative)))
      · exact fun _ _ hleaves' => hleaves.trans hleaves'
    · exact hleaves

/-- What follows the activation of the native transport. -/
private theorem meets_openNative (hk : k.Sound) (h : Waiting c) (hactive : c.transport.active = true)
    (hnative : c.webSocket.nativeTransport = true) (honTime : c.log.openedLate = false)
    (transferError : Bool) (response upgradeHead : Bytes) :
    (openNative k transferError response upgradeHead c).Meets (contract Z) fun _ c' =>
      Waiting c' := by
  set c₁ := c.mapWebSocket fun ws => { ws with nativeActive := true } with hc₁
  have hwaiting : Waiting c₁ := { h with
    quiet := fun _ hinactive => absurd (hactive.symm.trans hinactive) (by decide) }
  unfold openNative
  simp only [Program.meets_bind, Program.meets_ite, Program.meets_pure, meets_modifyWebSocket]
  split
  · exact hwaiting
  · have hpermits : Permits .response c₁ := ⟨fun _ => rfl, fun _ _ _ => rfl⟩
    refine Comm.Meets.mono (meets_writeFrame_native hk (hwaiting.works hactive)
      hwaiting.guarded hnative response (show c₁.log.owed = Option.toList none ++ [] from
        hwaiting.noneOwed) fun _ => hpermits) ?_
    intro written c₂ hsettles
    have hleaves := hsettles.leaves hwaiting.noneOwed
    have hwaiting₂ := hwaiting.leaves hleaves
    have hactive₂ := hleaves.rely.active hactive
    have hopened := hwaiting₂.opened hactive₂ (hleaves.rely.nativeTransport.trans hnative)
      (hleaves.rely.openedLate.trans honTime)
    cases written with
    | none => exact hwaiting₂
    | some whole =>
      cases whole with
      | false => exact hwaiting₂
      | true =>
        simp only [Program.meets_bind, Program.meets_modify]
        exact (meets_upgraded hk hopened (fun _ => hactive₂) upgradeHead).mono fun _ _ hleaves' =>
          hopened.leaves hleaves'

/-- The takeover by the native transport. -/
theorem meets_activate (hk : k.Sound) (h : Waiting c)
    (hnative : c.webSocket.nativeTransport = true)
    (hattached : c.transport.sessionAttached = true) (hlive : c.webSocket.closed = false)
    (honTime : c.log.openedLate = false) (transferError : Bool) (response upgradeHead : Bytes) :
    (activate k transferError response upgradeHead c).Meets (contract Z) fun _ c' =>
      Waiting c' := by
  have hfail : ∀ {c₁ : Connection Z}, Waiting c₁ →
      (fail k c₁).Meets (contract Z) fun _ c' => Waiting c' := fun hwaiting =>
    (meets_fail hk hwaiting.toSettled).mono fun _ _ hleaves => hwaiting.leaves hleaves.1
  unfold activate
  refine Program.meets_bind.mpr ((NativeTransport.meets_activate hk h.toSettled hattached hlive
    h.notReporting hnative).mono ?_)
  rintro status c₁ ⟨hleaves, hsuccess⟩
  have hwaiting := h.leaves hleaves
  simp only [Program.meets_ite]
  split
  · exact hfail hwaiting
  · next hstatus =>
    have hactive := (hsuccess (by omega)).2
    refine Program.meets_bind.mpr (Comm.Meets.mono (meets_openNative hk hwaiting hactive
      (hleaves.rely.nativeTransport.trans hnative) (hleaves.rely.openedLate.trans honTime)
      transferError response upgradeHead) ?_)
    intro opened c₂ hwaiting₂
    cases opened with
    | none => exact hfail hwaiting₂
    | some _ => exact hwaiting₂

/-- The takeover by the fallback driver. -/
theorem meets_openFallback (hk : k.Sound) (h : Waiting c)
    (hfallback : c.webSocket.nativeTransport = false) (hlive : c.webSocket.closed = false)
    (hnone : ¬c.CloseQueued) (hgraceful : c.transport.gracefulCloseRequested = false)
    (upgradeHead : Bytes) :
    (openFallback k upgradeHead c).Meets (contract Z) fun _ c' => Waiting c' := by
  have hopened := h.openedFallback hfallback hlive hnone hgraceful
  unfold openFallback
  simp only [Program.meets_bind, meets_modifyWebSocket]
  refine Comm.Meets.mono (meets_upgraded hk hopened
    (fun hnative => absurd (hnative.symm.trans hfallback) (by decide)) upgradeHead) ?_
  intro returned c₁ hleaves
  have hwaiting := hopened.leaves hleaves
  cases returned with
  | none =>
    simp only [Program.meets_bind, Program.meets_pure]
    exact (meets_terminate_webSocket hk hwaiting.toSettled).mono fun _ _ hleaves' =>
      hwaiting.leaves hleaves'.1
  | some _ => exact hwaiting

end WebSocket

/-- A connection starts in a waiting state. -/
theorem Connection.waiting_start (settings : Settings)
    (compressionContext : Option (CompressionContext Z)) :
    Waiting (Connection.start settings compressionContext) where
  order := rfl
  statuses := ⟨[], rfl, by simp⟩
  taken := by
    unfold Connection.taken
    split <;> exact List.nil_prefix
  written := Nat.zero_le _
  descriptor := List.nil_prefix
  sent := fun _ n hpos hle => absurd (hpos.trans_le hle) (lt_irrefl _)
  charged := fun _ callback => (if_neg (Nat.not_lt_zero callback)).symm
  paid := fun _ hfired => by cases hfired
  orderly := fun _ => List.Pairwise.nil
  late := fun hlate => by cases hlate
  deleted := fun hdestroyed => by cases hdestroyed
  pending := rfl
  counted := fun _ hr => by cases hr
  waiting := rfl
  lengths := rfl
  serials := rfl
  complete := fun _ => rfl
  head := fun _ _ hr => by cases hr
  behind := fun _ hr => by cases hr
  told := fun ⟨_, _, hmem⟩ => by cases hmem
  spent := fun hclosing => by cases hclosing
  shutdowns := Nat.zero_le _
  unshut := fun _ _ => rfl
  deadline := fun hgraceful => by cases hgraceful
  idle := fun _ _ => rfl
  plain := fun _ => rfl
  position := by
    intro _
    unfold Connection.taken
    split <;> rfl
  cipher := fun _ _ _ => rfl
  cuts := fun _ hp => by cases hp
  last := fun _ _ hne => by
    unfold Connection.taken at hne
    split at hne <;> exact absurd rfl hne
  finished := fun hclosed => by cases hclosed
  returns := fun _ hp => by cases hp
  usable := fun _ _ => rfl
  vectors := settings.maximumIOVectors_pos
  unused := fun _ => rfl
  quiet := fun _ _ => ⟨by simp [Connection.start], rfl⟩
  polled := fun hpolled => by cases hpolled
  driven := fun hactive => by cases hactive
  foreign := fun hclosing => by cases hclosing
  fresh := fun _ hmem => by cases hmem
  nodup := List.nodup_nil
  handed := fun _ hmem => by cases hmem
  native := fun hnative => ⟨by simpa [Connection.start] using hnative, rfl⟩
  drained := fun hclosed => by cases hclosed
  closeSent := by
    rintro ⟨frame, hmem, -⟩
    cases hmem
  requested := by
    rintro (hpending | hgraceful)
    · cases hpending
    · cases hgraceful
  graceful := fun _ hgraceful => by cases hgraceful
  external := fun _ => rfl
  closed := fun hclosed => by cases hclosed
  shut := fun _ hclosed => by cases hclosed
  upgrading := fun _ => rfl
  upgraded := fun hpending => by cases hpending
  pendingClose := rfl
  severed := fun hactive => by cases hactive
  reporting := fun hreporting => by cases hreporting
  guarded := by
    rintro - ⟨frame, hmem, -⟩
    cases hmem
  noneOwed := rfl
  notFlushing := rfl
  notReporting := rfl
  released := fun hclosing => by cases hclosing

/-- A whole run, from the takeover on. -/
theorem meets_run (hk : k.Sound) (settings : Settings)
    (compressionContext : Option (CompressionContext Z)) (takeover : Takeover) :
    (run k takeover (Connection.start settings compressionContext)).Meets (contract Z)
      fun _ _ => True := by
  have hstart := Connection.waiting_start settings compressionContext
  have hturns : ∀ {c : Connection Z}, Waiting c →
      ((Program.iterate (fun _ => do
        turn k
        return .inr () : Unit → Run Z (Empty ⊕ Unit)) k.steps ()) c).Meets (contract Z)
          fun _ _ => True := by
    intro c h
    refine Program.meets_iterate (I := fun _ c => Waiting c) ?_ _ h
    intro _ c₁ h₁
    simp only [Program.meets_bind, Program.meets_pure]
    exact meets_turn hk h₁
  unfold run
  simp only [Program.meets_bind, meets_webSocket, Program.meets_ite]
  split
  · next hnative =>
    exact (meets_nodeCallback hk (WebSocket.meets_activate hk hstart hnative rfl rfl rfl _ _ _)).mono
      fun _ _ h => hturns h
  · next hfallback =>
    refine Comm.Meets.mono (meets_nodeCallback hk (WebSocket.meets_openFallback hk hstart
      (Bool.eq_false_of_not_eq_true hfallback) rfl ?_ rfl _)) fun _ _ h => hturns h
    rintro ⟨frame, hmem, -⟩
    cases hmem

/-- The states in which a run asks its environment satisfy the invariant: all of it where the
application runs or the event loop waits, and what can be said at any time elsewhere. -/
theorem Reachable.asks {settings : Settings} {compressionContext : Option (CompressionContext Z)}
    {takeover : Takeover} {q : Query}
    (h : Reachable settings compressionContext takeover q c) : (contract Z).asks q c := by
  obtain ⟨n, hreaches⟩ := h
  have hmeets := meets_run (callees_sound Z n) settings compressionContext takeover
  exact hmeets.reaches (hreaches.of_answers fun _ _ _ hanswer => hanswer)

end Eiows
