import Eiows.WebSocket.Sending

/-!
# Closing handshakes and received data

`close`, the events that `_consume` dispatches on the fallback driver, and the takeover
of a connection. The reply to a Close frame and the end of `OPEN` are two events of one
batch, and no code of the application runs between them.
-/

namespace Eiows

open Interaction NativeTransport

variable {Z : Zlib} {k : Callees Z} {c : Connection Z}

/-- What the events of a batch leave. `sent` says whether the Close frame precedes them. -/
structure Handled (sent : Bool) (c c' : Connection Z) : Prop where
  settled : Settled c'
  rely : Rely c c'
  silent : sent = true → Silent c c'
  owed : c.log.owed = c'.log.owed

theorem Leaves.handled {c₁ c' : Connection Z} {sent : Bool} (h : Leaves none c c₁)
    (h' : Handled sent c₁ c') : Handled sent c c' :=
  ⟨h'.settled, h.rely.trans h'.rely, fun hs => h.silent.trans (h'.silent hs), h.owed.trans h'.owed⟩

namespace WebSocket

/-- The end of `close` on the native driver. -/
private theorem meets_closeNative (hk : k.Sound) (h : Native c) (hguarded : c.Guarded)
    (hending : c.Ending) (hnative : c.webSocket.nativeTransport = true) (code : ℕ) (reason : Bytes) :
    (closeNative k code reason c).Meets (contract Z) fun _ c' => Leaves none c c' := by
  unfold closeNative
  refine Program.meets_bind.mpr ((meets_writeClose hk h hguarded hending code reason).mono ?_)
  intro result c₁ hserves
  have hleaves : Leaves none c c₁ := ⟨hserves.settled, hserves.rely, hserves.silent, hserves.owed⟩
  cases result with
  | threw =>
    exact (meets_fail hk hserves.settled).mono fun _ _ hfailed => hleaves.trans hfailed.1
  | status status =>
    simp only [Program.meets_bind, Program.meets_ite, Program.meets_pure]
    split
    · refine (meets_terminate hk hserves.settled.closable
        (hserves.rely.nativeTransport.trans hnative)).mono ?_
      rintro _ c' ⟨hleaves', -⟩
      exact hleaves.trans hleaves'
    · exact hleaves

/-- The end of `close` on the fallback driver. -/
private theorem meets_closeFallback (hk : k.Sound) (h : Settled c) (hending : c.Ending)
    (hfallback : c.webSocket.nativeTransport = false) (hlive : c.webSocket.closed = false)
    (code : ℕ) (reason : Bytes) :
    (closeFallback k code reason c).Meets (contract Z) fun _ c' => Leaves none c c' := by
  unfold closeFallback
  simp only [Program.meets_bind, Program.meets_get]
  by_cases hended : c.session.session.closing = true ∨ c.session.session.closeSent = true
  · rw [StreamWebSocket.createCloseFrame_refused hended]
    simp only [Program.meets_bind, Program.meets_ite, Program.meets_pure, meets_modifySocket]
    split
    · exact h.leaves_mapSocket true c.socket.destroyed
    · exact .refl h
  · rw [StreamWebSocket.createCloseFrame, if_neg hended]
    simp only [not_or, Bool.not_eq_true] at hended
    set session : StreamWebSocket Z :=
      { c.session with session := { c.session.session with closeSent := true } } with hsession
    have hadvances : SessionAdvances c session := ⟨id, fun _ => rfl⟩
    have hnone : ¬c.CloseQueued := fun hqueued =>
      absurd ((h.closeSent hqueued).symm.trans hended.2) (by decide)
    have hleaves := h.withSession hadvances
    simp only [Program.meets_bind, Program.meets_modify, Program.meets_pure]
    refine (meets_writeFrame_fallback hk hleaves.settled hfallback hlive
      (show c.log.owed = Option.toList none ++ c.log.owed from rfl) ⟨fun _ hqueued => absurd hqueued hnone, fun _ => rfl⟩).mono ?_
    intro result c' hhanded
    refine ⟨⟨hhanded.pausing, hhanded.reporting, hhanded.guarded (.inr (.inl hending))⟩,
      hleaves.rely.trans hhanded.rely, fun hsent => ?_, hhanded.owed.symm⟩
    exact absurd (hsent.symm.trans hended.2) (by decide)

/-- `close`. -/
theorem meets_close (hk : k.Sound) (h : Settled c) (code : Option ℕ) (reason : Bytes) :
    (close k code reason c).Meets (contract Z) fun _ c' => Leaves none c c' := by
  unfold close setReadyState startCloseTimeout
  simp only [Program.meets_bind, meets_webSocket, Program.meets_ite, Program.meets_pure,
    meets_modifyWebSocket, meets_modifyLog]
  split
  · exact .refl h
  · next hstate =>
    simp only [Bool.or_eq_true, decide_eq_true_eq, not_or] at hstate
    split
    · exact (meets_abortPendingUpgrade hk h true).mono fun _ _ hleaves => hleaves.1
    · next hupgraded =>
      have hopen : c.webSocket.readyState = .opened := by
        have hconnected := h.upgraded (by simpa using hupgraded)
        cases hready : c.webSocket.readyState with
        | opened => rfl
        | connecting => exact absurd hready hconnected
        | closing => exact absurd hready hstate.1
        | closed => exact absurd hready hstate.2
      have hentered := h.toPausing.leaves_timed hstate.2 c.webSocket.closeCode c.webSocket.closeReason
      have hending := c.entered_ending c.webSocket.closeCode c.webSocket.closeReason true
      split
      · exact .refl h
      · split
        · exact .refl h
        · split
          · exact .refl h
          · split
            · next hnative =>
              have hworks := h.works hnative hopen
              have hnative₁ : Native ((c.entered c.webSocket.closeCode c.webSocket.closeReason
                  true).mapLog fun log => { log with deadline := true }) :=
                ⟨hentered.settled.toPausing, hworks.notReporting, hworks.active⟩
              refine Comm.Meets.mono (meets_closeNative hk hnative₁ hentered.settled.guarded hending
                hnative _ _) ?_
              exact fun _ _ hleaves => hentered.trans hleaves
            · next hfallback =>
              have hfallback : c.webSocket.nativeTransport = false := by simpa using hfallback
              have hlive : c.webSocket.closed = false := by
                by_contra hclosed
                exact hstate.2 (h.shut hfallback (by simpa using hclosed))
              refine Comm.Meets.mono (meets_closeFallback hk hentered.settled hending hfallback hlive
                _ _) ?_
              exact fun _ _ hleaves => hentered.trans hleaves

/-- A CLOSE event takes the connection out of `OPEN`, also right after the Close frame. -/
private theorem meets_consumeClose (h : Pausing c) (code : ℕ) (reason : Bytes) :
    (consumeEvents k [.close code reason] c).Meets (contract Z) fun _ c' => Leaves none c c' := by
  simp only [consumeEvents, startCloseTimeout, Program.meets_bind, meets_webSocket,
    Program.meets_ite, Program.meets_pure, meets_modifyWebSocket, meets_modifySocket,
    meets_modifyLog]
  split
  · next hclosed => exact .refl (h.settled (.inr hclosed))
  · next hlive =>
    have hentered := h.leaves_timed hlive code reason
    exact hentered.trans (hentered.settled.leaves_mapSocket true c.socket.destroyed)

/-- The events of a batch on the fallback driver, by induction on what it may hold. -/
private theorem meets_consumeEvents (hk : k.Sound) {es : List Event}
    {closing sent closing' sent' : Bool} (hbatch : Batch closing sent es closing' sent') :
    ∀ {c : Connection Z}, Settled c → c.webSocket.nativeTransport = false →
      (sent = false → sent' = true → c.session.session.closeSent = true ∧ ¬c.CloseQueued) →
      (consumeEvents k es c).Meets (contract Z) fun _ c' => Handled sent c c' := by
  have hstop : ∀ {sent : Bool} {c : Connection Z}, Settled c → Handled sent c c := fun h =>
    ⟨h, .refl _, fun _ => .refl _, rfl⟩
  have hlive : ∀ {c : Connection Z}, Settled c → c.webSocket.nativeTransport = false →
      c.webSocket.readyState ≠ .closed → c.webSocket.closed = false := by
    intro c h hfallback hstate
    by_contra hclosed
    exact hstate (h.shut hfallback (by simpa using hclosed))
  induction hbatch with
  | nil closing sent => exact fun h _ _ => hstop h
  | @message sent closing' sent' es payload opCode hrest ih =>
    intro c h hfallback hunsent
    simp only [consumeEvents, Program.meets_bind, meets_webSocket, Program.meets_ite,
      Program.meets_pure]
    split
    · exact hstop h
    · split
      · refine (hk.application (.message payload (opCode = .binary)) h trivial).mono
          fun returned c₁ hleaves => ?_
        cases returned with
        | none => exact hleaves.handled (hstop hleaves.settled)
        | some _ =>
          refine Comm.Meets.mono (ih hleaves.settled
            (hleaves.rely.nativeTransport.trans hfallback) fun hs hs' => ?_) ?_
          · obtain ⟨hsent, hnone⟩ := hunsent hs hs'
            obtain ⟨hsent₁, hqueued⟩ := hleaves.silent hsent
            exact ⟨hsent₁, fun hclose => hnone (hqueued hclose)⟩
          · exact fun _ _ hhandled => hleaves.handled hhandled
      · exact ih h hfallback hunsent
  | @pong sent closing' sent' es data hhead hrest ih =>
    intro c h hfallback hunsent
    obtain ⟨hother, hcontrol⟩ := pong_kind hhead
    simp only [consumeEvents, Program.meets_bind, meets_webSocket, Program.meets_ite,
      Program.meets_pure]
    split
    · exact hstop h
    · next hstate =>
      refine (meets_writeFrame_fallback hk h hfallback
        (hlive h hfallback hstate) (show c.log.owed = Option.toList none ++ c.log.owed from rfl)
        ⟨fun _ _ => ⟨hother, hcontrol⟩, fun hclose =>
          absurd (hclose.symm.trans hother) (by decide)⟩).mono ?_
      intro written c₁ hhanded
      have hleaves := (hhanded.settles hother).leaves rfl
      cases written with
      | none => exact hleaves.handled (hstop hleaves.settled)
      | some _ =>
        refine Comm.Meets.mono (ih hleaves.settled
          (hleaves.rely.nativeTransport.trans hfallback) fun hs hs' => ?_) ?_
        · obtain ⟨hsent, hnone⟩ := hunsent hs hs'
          obtain ⟨hsent₁, hqueued⟩ := hleaves.silent hsent
          exact ⟨hsent₁, fun hclose => hnone (hqueued hclose)⟩
        · exact fun _ _ hhandled => hleaves.handled hhandled
  | @reply data hhead code reason =>
    intro c h hfallback hunsent
    obtain ⟨hsent, hnone⟩ := hunsent rfl rfl
    rw [consumeEvents]
    simp only [Program.meets_bind, meets_webSocket, Program.meets_ite, Program.meets_pure]
    split
    · exact hstop h
    · next hstate =>
      refine (meets_writeFrame_fallback hk h hfallback
        (hlive h hfallback hstate) (show c.log.owed = Option.toList none ++ c.log.owed from rfl)
        ⟨fun _ hqueued => absurd hqueued hnone, fun _ => hsent⟩).mono ?_
      intro written c₁ hhanded
      cases written with
      | none =>
        exact ⟨⟨hhanded.pausing, hhanded.reporting, hhanded.guarded (.inr (.inr (by simp)))⟩,
          hhanded.rely, fun hs => (by cases hs), hhanded.owed.symm⟩
      | some _ =>
        refine Comm.Meets.mono (meets_consumeClose hhanded.pausing code reason) ?_
        exact fun _ _ hleaves => ⟨hleaves.settled, hhanded.rely.trans hleaves.rely,
          fun hs => (by cases hs), hhanded.owed.symm.trans hleaves.owed⟩
  | ended code reason =>
    intro c h _ _
    exact (meets_consumeClose h.toPausing code reason).mono fun _ _ hleaves =>
      hleaves.handled (hstop hleaves.settled)

/-- `_consume`. -/
theorem meets_consume (hk : k.Sound) (h : Settled c)
    (hworks : c.webSocket.nativeTransport = true → Native c) (data : Bytes) :
    (consume k data c).Meets (contract Z) fun _ c' => Leaves none c c' := by
  have hbatch := StreamWebSocket.consume_batch data c.session
  obtain ⟨hclosing, hsent⟩ := hbatch.mono
  unfold consume
  simp only [Program.meets_bind, meets_webSocket, Program.meets_get, Program.meets_modify,
    Program.meets_ite, Program.meets_pure]
  split
  · exact .refl h
  · split
    · next hnative =>
      refine (meets_feed hk (hworks hnative) h.guarded data).mono fun _ c' hserves => ?_
      exact ⟨hserves.settled, hserves.rely, hserves.silent, hserves.owed⟩
    · next hfallback =>
      have hfallback : c.webSocket.nativeTransport = false := by simpa using hfallback
      have hadvances : SessionAdvances c (c.session.consume data).releaseEvents :=
        ⟨hclosing, hsent⟩
      have hleaves := h.withSession hadvances
      split
      · exact (meets_fail hk hleaves.settled).mono fun _ _ hfailed => hleaves.trans hfailed.1
      · refine Comm.Meets.mono (meets_consumeEvents hk hbatch hleaves.settled hfallback ?_) ?_
        · intro hs hs'
          refine ⟨hs', fun hqueued => ?_⟩
          exact absurd (hs.symm.trans (h.closeSent hqueued)) (by decide)
        · intro _ c' hhandled
          exact ⟨hhandled.settled, hleaves.rely.trans hhandled.rely, fun hs =>
            hleaves.silent.trans (hhandled.silent hs) hs, hhandled.owed⟩

/-- `_onSocketError`. -/
theorem meets_onSocketError (hk : k.Sound) (h : Settled c)
    (hfallback : c.webSocket.nativeTransport = false) :
    (onSocketError k c).Meets (contract Z) fun _ c' => Leaves none c c' := by
  have herror := h.leaves_socketError
  unfold onSocketError
  simp only [Program.meets_bind, meets_modifyWebSocket]
  refine (hk.application .error herror.settled ⟨rfl, fun hnative => ?_⟩).mono fun _ _ hleaves =>
    herror.trans hleaves
  exact absurd (hnative.symm.trans hfallback) (by decide)

/-- The listener of the Node socket for `end`. -/
theorem meets_onSocketEnd (h : Settled c) :
    (onSocketEnd c).Meets (contract Z) fun _ c' => Leaves none c c' := by
  unfold onSocketEnd setReadyState
  simp only [Program.meets_bind, meets_webSocket, Program.meets_get, Program.meets_ite,
    Program.meets_pure, meets_modifyWebSocket, meets_modifySocket]
  have hended : ∀ {c₁ : Connection Z}, Leaves none c c₁ →
      if (!c₁.socket.destroyed) = true then
        Leaves none c (c₁.mapSocket fun socket => { socket with ended := true })
      else Leaves none c c₁ := by
    intro c₁ hleaves
    split
    · exact hleaves.trans (hleaves.settled.leaves_mapSocket true c₁.socket.destroyed)
    · exact hleaves
  split
  · next hopen =>
    exact hended (h.toPausing.leaves_entered (by rw [hopen]; decide) c.webSocket.closeCode
      c.webSocket.closeReason c.webSocket.closeTimer)
  · exact hended (.refl h)

end WebSocket

end Eiows
