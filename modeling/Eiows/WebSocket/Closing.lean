import Eiows.Session.Calls
import Eiows.Transport.Reading

/-!
# Closing the WebSocket

The methods of `WebSocket` that end a connection, and the calls of native code that
end in them. Every one of them may run code of the application, and leaves a state in
which it may run again.
-/

namespace Eiows

open Interaction NativeTransport

variable {Z : Zlib} {k : Callees Z} {c : Connection Z}

/-- The state after `readyState` has become `CLOSING`. -/
def Connection.entered (c : Connection Z) (code : ℕ) (reason : Bytes) (timer : Bool) :
    Connection Z :=
  c.mapWebSocket fun ws =>
    { ws with closeCode := code, closeReason := reason, readyState := .closing, closeTimer := timer }

/-- The state at the start of `_finalizeClose`. -/
def Connection.finalised (c : Connection Z) : Connection Z :=
  c.mapWebSocket fun ws =>
    { ws with closed := true, upgradePending := false, readyState := .closed, closeTimer := false }

theorem Connection.entered_ending (c : Connection Z) (code : ℕ) (reason : Bytes) (timer : Bool) :
    (c.entered code reason timer).Ending :=
  .inl rfl

theorem Connection.rely_entered (c : Connection Z) (code : ℕ) (reason : Bytes) (timer : Bool) :
    Rely c (c.entered code reason timer) :=
  { Rely.refl c with ending := fun _ => .inl rfl }

theorem Connection.rely_finalised (c : Connection Z) : Rely c c.finalised :=
  { Rely.refl c with
    closed := fun _ => rfl
    ending := fun _ => .inr rfl }

/-- A connection that is not closed may start to close. -/
theorem Telling.entered (h : Telling c) (hlive : c.webSocket.readyState ≠ .closed) (code : ℕ)
    (reason : Bytes) (timer : Bool) : Telling (c.entered code reason timer) :=
  { h with
    quiet := fun hnative hactive =>
      ⟨by simp [Connection.entered, Connection.mapWebSocket], (h.quiet hnative hactive).2⟩
    graceful := fun _ _ => .inl rfl
    closed := fun hclosed => by cases hclosed
    shut := fun hfallback hclosed => absurd (h.shut hfallback hclosed) hlive
    upgraded := fun _ => by simp [Connection.entered, Connection.mapWebSocket] }

theorem Pausing.leaves_entered (h : Pausing c) (hlive : c.webSocket.readyState ≠ .closed)
    (code : ℕ) (reason : Bytes) (timer : Bool) : Leaves none c (c.entered code reason timer) :=
  ⟨Pausing.settled ⟨h.toTelling.entered hlive code reason timer, h.told⟩ (.inl rfl),
    c.rely_entered code reason timer, fun hsent => ⟨hsent, id⟩, rfl⟩

/-- A connection that is not closed may start to close, and its deadline begins. -/
theorem Telling.leaves_timed (h : Telling c) (hlive : c.webSocket.readyState ≠ .closed) (code : ℕ)
    (reason : Bytes) :
    Leaves none c ((c.entered code reason true).mapLog fun log => { log with deadline := true }) := by
  have htelling : Telling ((c.entered code reason true).mapLog fun log =>
      { log with deadline := true }) :=
    { h.entered hlive code reason true with deadline := fun _ _ => rfl }
  exact ⟨Pausing.settled ⟨htelling, fun _ _ => rfl⟩ (.inl rfl),
    { c.rely_entered code reason true with deadline := fun _ => rfl }, fun hsent => ⟨hsent, id⟩, rfl⟩

/-- Finalising a connection. Its socket has no callbacks left where it is closed. -/
theorem Closable.finalised (h : Closable c) : Closable c.finalised :=
  { h with
    quiet := fun hnative hactive =>
      ⟨by simp [Connection.finalised, Connection.mapWebSocket], (h.quiet hnative hactive).2⟩
    drained := fun hclosed => ⟨rfl, (h.drained hclosed).2⟩
    graceful := fun _ _ => .inr rfl
    external := fun hopen => by cases hopen
    closed := fun _ => rfl
    shut := fun _ _ => rfl
    upgrading := fun hpending => by cases hpending
    upgraded := fun _ => by simp [Connection.finalised, Connection.mapWebSocket]
    reporting := fun _ => .inr rfl }

/-- Without a native transport nothing can be severed. -/
theorem Closable.settled_fallback (h : Closable c) (hfallback : c.webSocket.nativeTransport = false)
    (htold : c.Told) (hending : c.Ending) : Settled c := by
  refine Pausing.settled ⟨⟨h.toStable, h.pendingClose, fun hactive => ?_⟩, htold⟩ hending
  exact absurd ((h.driven hactive).symm.trans hfallback) (by decide)

/-- The owner lets the transport go. -/
theorem Settled.released (h : Settled c) (hclosed : c.webSocket.closed = true) (external : Bool) :
    Settled (c.mapWebSocket fun ws => { ws with external, nativeActive := false }) :=
  { h with
    quiet := fun hnative hactive =>
      ⟨(h.quiet hnative hactive).1, rfl⟩
    external := fun hopen => absurd (hclosed.symm.trans hopen) (by decide) }

/-- The Node socket of the fallback driver is ended or destroyed. -/
theorem Settled.leaves_mapSocket (h : Settled c) (ended destroyed : Bool) :
    Leaves none c (c.mapSocket fun socket => { socket with ended, destroyed }) :=
  ⟨{ h with }, { Rely.refl c with }, fun hsent => ⟨hsent, id⟩, rfl⟩

/-- Settling does not depend on the deadline for the close. -/
theorem Settled.leaves_timer (h : Settled c) (closeTimer : Bool) :
    Leaves none c (c.mapWebSocket fun ws => { ws with closeTimer }) :=
  ⟨{ h with }, { Rely.refl c with }, fun hsent => ⟨hsent, id⟩, rfl⟩

/-- The first error of a connection has been emitted. -/
theorem Settled.leaves_socketError (h : Settled c) :
    Leaves none c (c.mapWebSocket fun ws => { ws with socketError := true }) :=
  ⟨{ h with }, { Rely.refl c with socketError := fun _ => rfl }, fun hsent => ⟨hsent, id⟩, rfl⟩

/-- An upgrade that is over leaves `CONNECTING`. -/
theorem Settled.leaves_aborted (h : Settled c) (hending : c.Ending) :
    Leaves none c (c.mapWebSocket fun ws => { ws with upgradePending := false }) := by
  refine ⟨{ h with
    upgrading := fun hpending => by cases hpending
    upgraded := fun _ => ?_ }, { Rely.refl c with }, fun hsent => ⟨hsent, id⟩, rfl⟩
  intro hconnecting
  have hstate : c.webSocket.readyState = .connecting := hconnecting
  rcases hending with hclosing | hclosed
  · rw [hstate] at hclosing
    cases hclosing
  · rw [hstate] at hclosed
    cases hclosed

namespace WebSocket

/-- `_finalizeClose`, from any state that can be finalised. -/
theorem meets_finalizeClose_of (hk : k.Sound) (hover : c.webSocket.closed = true → Settled c)
    (hlive : c.webSocket.closed = false →
      Closable c.finalised ∧ c.webSocket.external = true ∧ c.Told) :
    (finalizeClose k c).Meets (contract Z) fun _ c' =>
      Leaves none c c' ∧ c'.webSocket.closed = true := by
  unfold finalizeClose
  simp only [Program.meets_bind, meets_webSocket, Program.meets_ite, Program.meets_pure,
    meets_modifyWebSocket]
  split
  · next hclosed => exact ⟨.refl (hover hclosed), hclosed⟩
  · next hopen =>
    obtain ⟨hclosable, hexternal, htold⟩ := hlive (by simpa using hopen)
    have hrely := c.rely_finalised
    -- what is left of the method once the transport has been given up
    have hlast : ∀ {c₁ : Connection Z}, Leaves none c.finalised c₁ →
        (k.application (.close c.webSocket.closeCode c.webSocket.closeReason)
          ((c₁.mapWebSocket fun ws => { ws with external := false }).mapWebSocket fun ws =>
            { ws with nativeActive := false })).Meets (contract Z) fun _ c' =>
          Leaves none c c' ∧ c'.webSocket.closed = true := by
      intro c₁ hleaves
      have hclosed := hleaves.rely.closed rfl
      have hsettled := hleaves.settled.released hclosed false
      have hstep : Rely c₁ (c₁.mapWebSocket fun ws => { ws with external := false, nativeActive := false }) :=
        { Rely.refl c₁ with }
      refine (hk.application (.close _ _) hsettled hclosed).mono fun _ c' hleaves' => ⟨⟨hleaves'.settled,
        (hrely.trans hleaves.rely).trans (hstep.trans hleaves'.rely),
        hleaves.silent.trans hleaves'.silent, hleaves.owed.trans hleaves'.owed⟩,
        hleaves'.rely.closed hclosed⟩
    rw [if_pos hexternal]
    split
    · next hnative =>
      exact (meets_requestDestroy hk hclosable htold (.inr rfl) hnative).mono fun _ _ hleaves =>
        hlast hleaves
    · next hfallback =>
      exact hlast (.refl (hclosable.settled_fallback (Bool.eq_false_of_not_eq_true hfallback) htold
        (.inr rfl)))

/-- `_finalizeClose`. -/
theorem meets_finalizeClose (hk : k.Sound) (h : Settled c) :
    (finalizeClose k c).Meets (contract Z) fun _ c' =>
      Leaves none c c' ∧ c'.webSocket.closed = true :=
  meets_finalizeClose_of hk (fun _ => h) fun hopen =>
    ⟨h.closable.finalised, h.external hopen, h.told⟩

/-- The transport is terminated where it is the native one, and the method goes on. -/
private theorem meets_terminateOwned (hk : k.Sound) {P : Connection Z → Prop} (h : Settled c)
    {owned : Bool} (howned : owned = true → c.webSocket.nativeTransport = true)
    (hP : ∀ c', Leaves none c c' → P c') :
    if owned = true then
      (NativeTransport.terminate k c).Meets (contract Z) fun _ c' => P c'
    else P c := by
  split
  · next hnative =>
    refine (meets_terminate hk h.closable (howned hnative)).mono ?_
    rintro _ c' ⟨hleaves, -⟩
    exact hP c' hleaves
  · exact hP c (.refl h)

/-- `_abortPendingUpgrade`. -/
theorem meets_abortPendingUpgrade (hk : k.Sound) (h : Settled c) (sendResponse : Bool) :
    (abortPendingUpgrade k sendResponse c).Meets (contract Z) fun _ c' =>
      Leaves none c c' ∧ (c.webSocket.upgradePending = true → c'.Ending) := by
  unfold abortPendingUpgrade setReadyState
  simp only [Program.meets_bind, meets_webSocket, Program.meets_get, Program.meets_ite,
    Program.meets_pure, meets_modifyWebSocket, meets_modifySocket]
  split
  · next hidle =>
    exact ⟨.refl h, fun hpending => by simp [hpending] at hidle⟩
  · next hpending =>
    have hpending : c.webSocket.upgradePending = true := by simpa using hpending
    have hlive : c.webSocket.readyState ≠ .closed := fun hclosed =>
      absurd ((h.closed hclosed).symm.trans (h.upgrading hpending)) (by decide)
    have hentered := h.toPausing.leaves_entered hlive c.webSocket.closeCode c.webSocket.closeReason
      c.webSocket.closeTimer
    have hending := c.entered_ending c.webSocket.closeCode c.webSocket.closeReason
      c.webSocket.closeTimer
    refine meets_terminateOwned hk hentered.settled (fun howned => ?_) fun c₁ hleaves => ?_
    · exact (Bool.and_eq_true _ _ ▸ howned).1
    · have hdone : ∀ {c' : Connection Z}, Leaves none c₁ c' →
          Leaves none c c' ∧ (c.webSocket.upgradePending = true → c'.Ending) := fun hleaves' =>
        ⟨hentered.trans (hleaves.trans hleaves'), fun _ =>
          hleaves'.rely.ending (hleaves.rely.ending hending)⟩
      split
      · split
        · split
          · exact hdone (hleaves.settled.leaves_mapSocket true c₁.socket.destroyed)
          · exact hdone (hleaves.settled.leaves_mapSocket c₁.socket.ended true)
        · exact hdone (.refl hleaves.settled)
      · have haborted := hleaves.settled.leaves_aborted (hleaves.rely.ending hending)
        split
        · exact hdone haborted
        · refine (meets_finalizeClose hk haborted.settled).mono ?_
          rintro _ c' ⟨hfinal, -⟩
          exact hdone (haborted.trans hfinal)

/-- The end of `_fail` and `terminate`. -/
theorem meets_releaseTransport (hk : k.Sound) (h : Settled c) :
    (releaseTransport k c).Meets (contract Z) fun _ c' => Leaves none c c' := by
  unfold releaseTransport
  simp only [Program.meets_bind, meets_webSocket, Program.meets_get, Program.meets_ite,
    Program.meets_pure, meets_modifySocket]
  split
  · next howned =>
    refine (meets_terminate hk h.closable (Bool.and_eq_true _ _ ▸ howned).1).mono ?_
    rintro _ c₁ ⟨hleaves, -⟩
    split
    · refine (meets_finalizeClose hk hleaves.settled).mono ?_
      rintro _ c' ⟨hfinal, -⟩
      exact hleaves.trans hfinal
    · exact hleaves
  · split
    · exact h.leaves_mapSocket c.socket.ended true
    · exact (meets_finalizeClose hk h).mono fun _ _ hfinal => hfinal.1

/-- The first error of the connection. -/
theorem meets_reportError (hk : k.Sound) (h : Settled c) (hending : c.Ending) :
    (reportError k c).Meets (contract Z) fun _ c' => Leaves none c c' := by
  unfold reportError
  simp only [Program.meets_bind, meets_webSocket, Program.meets_ite, Program.meets_pure,
    meets_modifyWebSocket]
  split
  · exact .refl h
  · have herror := h.leaves_socketError
    exact (hk.application .error herror.settled ⟨rfl, fun _ => hending⟩).mono fun _ _ hleaves => herror.trans hleaves

/-- `_fail`, also where a listener throws. -/
theorem meets_fail (hk : k.Sound) (h : Settled c) :
    (fail k c).Meets (contract Z) fun _ c' => Leaves none c c' ∧ c'.Ending := by
  unfold fail setReadyState
  simp only [Program.meets_bind, meets_webSocket, Program.meets_ite, Program.meets_pure,
    meets_modifyWebSocket]
  split
  · next hclosed => exact ⟨.refl h, .inr hclosed⟩
  · next hlive =>
    have hentered := h.toPausing.leaves_entered hlive c.webSocket.closeCode c.webSocket.closeReason
      c.webSocket.closeTimer
    have hending := c.entered_ending c.webSocket.closeCode c.webSocket.closeReason
      c.webSocket.closeTimer
    refine Comm.Meets.mono (meets_reportError hk hentered.settled hending) ?_
    intro reported c₁ hleaves
    have hending₁ := hleaves.rely.ending hending
    have hdone : ∀ {c' : Connection Z}, Leaves none c₁ c' → Leaves none c c' ∧ c'.Ending :=
      fun hleaves' => ⟨hentered.trans (hleaves.trans hleaves'), hleaves'.rely.ending hending₁⟩
    cases reported with
    | none => exact hdone (.refl hleaves.settled)
    | some _ =>
      simp only [Program.meets_bind, meets_webSocket, Program.meets_ite]
      split
      · exact (meets_abortPendingUpgrade hk hleaves.settled false).mono fun _ _ hleaves' =>
          hdone hleaves'.1
      · exact (meets_releaseTransport hk hleaves.settled).mono fun _ _ hleaves' => hdone hleaves'

/-- `terminate`. -/
theorem meets_terminate_webSocket (hk : k.Sound) (h : Settled c) :
    (terminate k c).Meets (contract Z) fun _ c' => Leaves none c c' ∧ c'.Ending := by
  unfold terminate setReadyState
  simp only [Program.meets_bind, meets_webSocket, Program.meets_ite, Program.meets_pure,
    meets_modifyWebSocket]
  split
  · next hclosed => exact ⟨.refl h, .inr hclosed⟩
  · next hlive =>
    split
    · next hpending =>
      refine (meets_abortPendingUpgrade hk h false).mono ?_
      rintro _ c' ⟨hleaves, hending⟩
      exact ⟨hleaves, hending hpending⟩
    · have hentered := h.toPausing.leaves_entered hlive c.webSocket.closeCode
        c.webSocket.closeReason c.webSocket.closeTimer
      have hending := c.entered_ending c.webSocket.closeCode c.webSocket.closeReason
        c.webSocket.closeTimer
      refine Comm.Meets.mono (meets_releaseTransport hk hentered.settled) ?_
      intro _ c' hleaves
      exact ⟨hentered.trans hleaves, hleaves.rely.ending hending⟩

/-- A call through `makeCallback`, whatever it throws. -/
theorem meets_makeCallback (hk : k.Sound) {f : Run Z (Option Unit)} {P : Connection Z → Prop}
    (hf : (f c).Meets (contract Z) fun _ c' => P c') (hsettled : ∀ c', P c' → Settled c')
    (hP : ∀ c₁ c₂, P c₁ → Leaves none c₁ c₂ → P c₂) :
    (makeCallback k f c).Meets (contract Z) fun _ c' => P c' := by
  have hcaught : ∀ {c₁ : Connection Z}, P c₁ →
      (k.application .uncaughtException c₁).Meets (contract Z) fun _ c' => P c' := fun hP₁ =>
    (hk.application .uncaughtException (hsettled _ hP₁) trivial).mono fun _ c' hleaves => hP _ _ hP₁ hleaves
  unfold makeCallback
  refine Program.meets_bind.mpr (hf.mono ?_)
  intro result c₁ hP₁
  cases result with
  | none =>
    simp only [Program.meets_bind, Program.meets_pure]
    exact hcaught hP₁
  | some _ =>
    refine Program.meets_bind.mpr ((hk.application .ticks (hsettled _ hP₁) trivial).mono ?_)
    intro ticked c₂ hleaves
    have hP₂ := hP _ _ hP₁ hleaves
    cases ticked with
    | none =>
      simp only [Program.meets_bind, Program.meets_pure]
      exact hcaught hP₂
    | some _ => exact hP₂

/-- A call through `makeCallback` leaves what its function leaves. -/
theorem meets_makeCallback_leaves (hk : k.Sound) {f : Run Z (Option Unit)}
    (hf : (f c).Meets (contract Z) fun _ c' => Leaves none c c') :
    (makeCallback k f c).Meets (contract Z) fun _ c' => Leaves none c c' :=
  meets_makeCallback hk hf (fun _ hleaves => hleaves.settled) fun _ _ hleaves hleaves' =>
    hleaves.trans hleaves'

/-- A call through `makeCallback` of a function that ends the connection. -/
private theorem meets_makeCallback_ends (hk : k.Sound) {call : OwnerCall} {f : Run Z (Option Unit)}
    (hf : (f c).Meets (contract Z) fun _ c' => call.Ended c c') :
    (makeCallback k f c).Meets (contract Z) fun _ c' => call.Ended c c' :=
  meets_makeCallback hk hf (fun _ h => h.leaves.settled) fun _ _ h hleaves =>
    ⟨h.leaves.trans hleaves, hleaves.rely.ending h.ending, fun hclose hopen =>
      hleaves.rely.deadline (h.deadline hclose (hleaves.rely.opened hopen))⟩

private theorem meets_onNativeClose (h : Telling c) (hactive : c.transport.active = true) (code : ℕ)
    (reason : Bytes) :
    (onNativeClose code reason c).Meets (contract Z) fun _ c' =>
      (OwnerCall.close code reason).Ended c c' := by
  unfold onNativeClose startCloseTimeout
  simp only [Program.meets_bind, meets_webSocket, Program.meets_ite, Program.meets_pure,
    meets_modifyWebSocket, meets_modifyLog]
  split
  · next hclosed =>
    have hclosing := h.severed hactive (.inr ⟨h.closed hclosed, h.driven hactive⟩)
    have hnever : ∀ {P : Prop}, c.transport.closing = false → P := fun hopen =>
      absurd (hclosing.symm.trans hopen) (by decide)
    exact ⟨.refl (Pausing.settled ⟨h, fun _ => hnever⟩ (.inr hclosed)), .inr hclosed, fun _ => hnever⟩
  · next hlive =>
    exact ⟨h.leaves_timed hlive code reason, c.entered_ending code reason true, fun _ _ => rfl⟩

private theorem meets_onNativeBackpressure (h : Pausing c) :
    ( onNativeBackpressure c).Meets (contract Z) fun _ c' => OwnerCall.backpressure.Ended c c' := by
  unfold onNativeBackpressure setReadyState
  simp only [Program.meets_bind, meets_webSocket, Program.meets_ite, Program.meets_pure,
    meets_modifyWebSocket]
  split
  · next hlive =>
    exact ⟨h.leaves_entered hlive _ _ _, c.entered_ending _ _ _, fun hclose => by cases hclose⟩
  · next hclosed =>
    have hclosed : c.webSocket.readyState = .closed := by simpa using hclosed
    exact ⟨.refl (h.settled (.inr hclosed)), .inr hclosed, fun hclose => by cases hclose⟩

private theorem meets_onNativeTransportError (hk : k.Sound) (h : Pausing c) :
    (onNativeTransportError k c).Meets (contract Z) fun _ c' =>
      OwnerCall.transportError.Ended c c' := by
  unfold onNativeTransportError setReadyState
  simp only [Program.meets_bind, meets_webSocket, Program.meets_ite, Program.meets_pure,
    meets_modifyWebSocket]
  split
  · next hclosed =>
    exact ⟨.refl (h.settled (.inr hclosed)), .inr hclosed, fun hclose => by cases hclose⟩
  · next hlive =>
    have hentered := h.leaves_entered hlive c.webSocket.closeCode c.webSocket.closeReason
      c.webSocket.closeTimer
    have hending := c.entered_ending c.webSocket.closeCode c.webSocket.closeReason
      c.webSocket.closeTimer
    refine Comm.Meets.mono (meets_reportError hk hentered.settled hending) ?_
    intro _ c' hleaves
    exact ⟨hentered.trans hleaves, hleaves.rely.ending hending, fun hclose => by cases hclose⟩

/-- A call of native code that ends the connection. -/
theorem meets_ownerCall_ends (hk : k.Sound) {call : OwnerCall} (hends : call.ends = true)
    (h : Telling c) (htimely : call.Timely c) :
    (ownerCall k call c).Meets (contract Z) fun _ c' => call.Ended c c' := by
  cases call with
  | close code reason =>
    exact meets_makeCallback_ends hk (meets_onNativeClose h htimely code reason)
  | backpressure => exact meets_makeCallback_ends hk (meets_onNativeBackpressure ⟨h, htimely⟩)
  | transportError =>
    exact meets_makeCallback_ends hk (meets_onNativeTransportError hk ⟨h, htimely⟩)
  | message payload isBinary => cases hends
  | closed => cases hends
  | writeCallback callback status => cases hends

/-- A call of native code. -/
theorem meets_ownerCall (hk : k.Sound) {call : OwnerCall} (hends : call.ends = false)
    (h : Settled c) (hrecorded : call.Recorded c) :
    (ownerCall k call c).Meets (contract Z) fun _ c' => Leaves none c c' := by
  cases call with
  | message payload isBinary =>
    apply meets_makeCallback_leaves hk
    unfold onNativeMessage
    simp only [Program.meets_bind, meets_webSocket, Program.meets_ite, Program.meets_pure]
    split
    · exact hk.application (.message payload isBinary) h trivial
    · exact .refl h
  | closed =>
    exact meets_makeCallback_leaves hk ((meets_finalizeClose hk h).mono fun _ _ hleaves => hleaves.1)
  | writeCallback callback status =>
    have hflag : (!decide (status < 0)) = decide (0 ≤ status) := by
      rw [← decide_not, decide_eq_decide, not_lt]
    exact meets_makeCallback_leaves hk (hk.application (.writeCallback callback (status < 0)) h
      (show (callback, !decide (status < 0)) ∈ c.log.fired from hflag ▸ hrecorded))
  | close code reason => cases hends
  | backpressure => cases hends
  | transportError => cases hends

end WebSocket

end Eiows
