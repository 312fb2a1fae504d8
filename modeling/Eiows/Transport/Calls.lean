import Eiows.Transport.Steps

/-!
# Calls from native code

What is demanded of the functions that are called from below, and what the native
functions that end a connection leave. Code of the application runs inside of all
of them.
-/

namespace Eiows

open Interaction

variable {Z : Zlib}

/-- The calls that end the connection. The owner leaves `OPEN` before the
application runs. -/
def OwnerCall.ends : OwnerCall → Bool
  | .close _ _ | .backpressure | .transportError => true
  | .message _ _ | .closed | .writeCallback _ _ => false

/-- The call that tells of the peer's close. -/
def OwnerCall.isClose : OwnerCall → Bool
  | .close _ _ => true
  | _ => false

/-- The states in which `maybeFinishPeerClose` is called. -/
structure PeerClosing (c : Connection Z) : Prop extends Stable c where
  severed : c.Severed
  notReporting : c.transport.reportingError = false
  active : c.transport.active = true
  pendingClose : c.transport.closing = true → c.transport.pendingClose = false
  told : c.transport.pendingClose = false → c.Told

/-- What `maybeFinishPeerClose` leaves. -/
structure PeerClosed (c c' : Connection Z) : Prop where
  native : Native c'
  rely : Rely c c'
  silent : Silent c c'
  owed : c.log.owed = c'.log.owed
  guarded : c.Guarded ∨ c.transport.pendingClose = true → c'.Guarded

/-- A write callback is called as recorded. -/
def OwnerCall.Recorded : OwnerCall → Connection Z → Prop
  | .writeCallback callback status, c => (callback, decide (0 ≤ status)) ∈ c.log.fired
  | _, _ => True

/-- What is known when the connection is ended: the owner of an active transport is told of the
peer's close, or has been told. -/
def OwnerCall.Timely : OwnerCall → Connection Z → Prop
  | .close _ _, c => c.transport.active = true
  | _, c => c.Told

/-- What a call leaves that ends the connection. The deadline starts once the owner is told of the
peer's close. -/
structure OwnerCall.Ended (call : OwnerCall) (c c' : Connection Z) : Prop where
  leaves : Leaves none c c'
  ending : c'.Ending
  deadline : call.isClose = true → c'.transport.closing = false → c'.log.deadline = true

/-- What the functions called from below have to meet. -/
structure Callees.Sound (k : Callees Z) : Prop where
  application : ∀ listener {c}, Settled c → listener.Occasion c →
    (k.application listener c).Meets (contract Z) fun _ c' => Leaves none c c'
  owner : ∀ call {c}, call.ends = false → Settled c → call.Recorded c →
    (k.owner call c).Meets (contract Z) fun _ c' => Leaves none c c'
  owner_ends : ∀ call {c}, call.ends = true → Telling c → call.Timely c →
    (k.owner call c).Meets (contract Z) fun _ c' => call.Ended c c'
  maybeFinishPeerClose : ∀ {c}, PeerClosing c →
    (k.maybeFinishPeerClose c).Meets (contract Z) fun _ c' => PeerClosed c c'

theorem Native.peerClosing {c : Connection Z} (h : Native c) : PeerClosing c :=
  ⟨h.toStable, h.severed, h.notReporting, h.active, fun _ => h.pendingClose, fun _ => h.told⟩

theorem PeerClosed.keeps {c c' : Connection Z} (h : PeerClosed c c') : Keeps c c' :=
  ⟨h.native, h.rely, h.silent, h.owed, fun hguarded => h.guarded (.inl hguarded)⟩

namespace NativeTransport

variable {k : Callees Z} {c : Connection Z} {r : WriteRequest} {rest : List WriteRequest}

/-- The callback of a request that has left the queue. -/
theorem meets_invoke (hk : k.Sound) {status : ℤ} {P : Connection Z → Prop}
    (h : Settled (c.mapLog (Log.fire r.ownCallback (decide (0 ≤ status)))))
    (hP : ∀ c', Leaves none (c.mapLog (Log.fire r.ownCallback (decide (0 ≤ status)))) c' → P c') :
    if r.deferred = true then
      (invokeWriteCallback k r status c).Meets (contract Z) fun _ c' => P c'
    else P c := by
  split
  · next hdeferred =>
    have hown : r.ownCallback = r.callback := if_pos hdeferred
    rw [hown] at h hP
    unfold invokeWriteCallback
    cases hcallback : r.callback with
    | none =>
      rw [hcallback, mapLog_fire_none] at h hP
      exact hP c (.refl h)
    | some callback =>
      rw [hcallback] at h hP
      simp only [Program.meets_bind, meets_modifyLog]
      have hrecorded : (callback, decide (0 ≤ status)) ∈
          (c.mapLog (Log.fire (some callback) (decide (0 ≤ status)))).log.fired :=
        List.mem_append_right _ (List.mem_singleton_self _)
      exact (hk.owner (.writeCallback callback status) rfl h hrecorded).mono fun _ c' hleaves => hP c' hleaves
  · next hdeferred =>
    have hown : r.ownCallback = none := if_neg hdeferred
    rw [hown, mapLog_fire_none] at h hP
    exact hP c (.refl h)

/-- Cancelling is done with no request left. -/
theorem meets_cancelWrites (hk : k.Sound) {status : ℤ} (hstatus : status < 0) (h : Settled c)
    (hclosing : c.transport.closing = true ∨ c.transport.queue = []) :
    (cancelWrites k status c).Meets (contract Z) fun _ c' =>
      Leaves none c c' ∧ c'.transport.queue = [] := by
  unfold cancelWrites
  refine Program.meets_iterate (I := fun _ c' => Leaves none c c' ∧
    (c'.transport.closing = true ∨ c'.transport.queue = [])) ?_ _ ⟨.refl h, hclosing⟩
  rintro - c' ⟨hleaves, hclosing⟩
  simp only [Program.meets_bind, meets_transport]
  cases hqueue : c'.transport.queue with
  | nil => exact ⟨hleaves, hqueue⟩
  | cons r rest =>
    have hclosing : c'.transport.closing = true := by
      rcases hclosing with hclosing | hnil
      · exact hclosing
      · rw [hqueue] at hnil
        cases hnil
    have hstable := hleaves.settled.toStable
    have hpending : c'.transport.pendingBytes - min c'.transport.pendingBytes r.remainingBytes =
        (rest.map (·.remainingBytes)).sum := by
      have hhead := hstable.head_pending hqueue
      omega
    have hnext : Settled (c'.afterHead r status (rest.map (·.remainingBytes)).sum) :=
      Closable.settled ⟨hstable.cancelHead hclosing hqueue hstatus, hleaves.settled.pendingClose,
        hleaves.settled.reporting⟩ hclosing
    have hstep : Leaves none c' (c'.afterHead r status (rest.map (·.remainingBytes)).sum) :=
      ⟨hnext, hstable.rely_afterHead hqueue status, fun hsent => ⟨hsent, id⟩, rfl⟩
    rw [← hpending] at hnext hstep
    simp only [Program.meets_bind, Program.meets_ite, Program.meets_pure, meets_modifyTransport,
      meets_modifyLog]
    apply meets_invoke hk
    · exact hnext
    · intro c'' hcallback
      exact ⟨hleaves.trans (hstep.trans hcallback), .inl (hcallback.rely.closing hclosing)⟩

/-- With no request, there is nothing to cancel. -/
theorem meets_cancelWrites_nil {status : ℤ} {P : Connection Z → Prop}
    (hempty : c.transport.queue = []) (hP : P c) :
    (cancelWrites k status c).Meets (contract Z) fun _ c' => P c' := by
  unfold cancelWrites
  refine Program.meets_iterate (I := fun _ c' => c' = c) ?_ _ rfl
  rintro - c' rfl
  simp only [Program.meets_bind, meets_transport]
  rw [hempty]
  exact hP

/-- Closing leaves no request, and no descriptor. -/
theorem meets_closeNow (hk : k.Sound) {status : ℤ} (hstatus : status < 0)
    (h : Closable (c.mapTransport fun t => { t with closing := true })) :
    (closeNow k status c).Meets (contract Z) fun _ c' =>
      Leaves none c c' ∧ c'.transport.closing = true := by
  have hsettled := h.settled rfl
  unfold closeNow
  simp only [Program.meets_bind, meets_transport, Program.meets_ite, Program.meets_pure]
  split
  · next hclosing =>
    have hsame : (c.mapTransport fun t => { t with closing := true }) = c := by
      simp [Connection.mapTransport, ← hclosing]
    rw [hsame] at hsettled
    exact ⟨.refl hsettled, hclosing⟩
  · next hopen =>
    simp only [meets_modifyTransport]
    refine (meets_cancelWrites hk hstatus hsettled (.inl rfl)).mono ?_
    rintro _ c' ⟨hleaves, hempty⟩
    have hclosing := hleaves.rely.closing rfl
    refine ⟨⟨Closable.settled ⟨hleaves.settled.toStable.release hclosing hempty,
      hleaves.settled.pendingClose, hleaves.settled.reporting⟩ hclosing, ?_, hleaves.silent,
      hleaves.owed⟩, hclosing⟩
    exact { hleaves.rely with
      closing := fun _ => hclosing
      finished := fun _ hopen => by cases hopen
      within := fun _ _ _ _ hopen => absurd (hclosing.symm.trans hopen) (by decide) }

/-- Closing where no closing handshake has led to it. -/
theorem meets_closeDisrupted (hk : k.Sound) {status : ℤ} (hstatus : status < 0)
    (h : Closable (c.disrupt.mapTransport fun t => { t with closing := true })) :
    (closeDisrupted k status c).Meets (contract Z) fun _ c' =>
      Leaves none c c' ∧ c'.transport.closing = true := by
  unfold closeDisrupted
  simp only [Program.meets_bind, meets_modifyLog]
  refine (meets_closeNow hk hstatus h).mono ?_
  rintro _ c' ⟨hleaves, hclosing⟩
  have hrely : Rely c c.disrupt := { Rely.refl c with }
  exact ⟨⟨hleaves.settled, hrely.trans hleaves.rely, hleaves.silent, hleaves.owed⟩, hclosing⟩

/-- `terminate`. -/
theorem meets_terminate (hk : k.Sound) (h : Closable c)
    (hnative : c.webSocket.nativeTransport = true) :
    (terminate k c).Meets (contract Z) fun _ c' =>
      Leaves none c c' ∧ c'.transport.closing = true := by
  unfold terminate
  simp only [Program.meets_bind, meets_transport, Program.meets_ite, Program.meets_pure]
  split
  · exact meets_closeDisrupted hk (by decide) (h.closeDisrupted hnative)
  · next hclosing =>
    have hclosing : c.transport.closing = true := by simpa using hclosing
    exact ⟨.refl (h.settled hclosing), hclosing⟩

/-- `fail`, also where ciphertext has been lost. -/
theorem meets_fail_lost (hk : k.Sound)
    (h : Pausing (c.mapTransport fun t => { t with reportingError := true }))
    (hreporting : c.transport.reportingError = false)
    (hnative : c.webSocket.nativeTransport = true) :
    (fail k c).Meets (contract Z) fun _ c' =>
      Leaves none c c' ∧ c'.transport.closing = true := by
  unfold fail reportTransportError
  simp only [Program.meets_bind, meets_transport, Program.meets_ite, Program.meets_pure]
  split
  · next hclosing =>
    refine ⟨.refl (Closable.settled ⟨?_, h.pendingClose, fun hreport => ?_⟩ hclosing), hclosing⟩
    · exact { h.toStable with
        cipher := fun _ hopen => absurd (hclosing.symm.trans hopen) (by decide) }
    · rw [hreporting] at hreport
      cases hreport
  · rw [if_neg (by rw [hreporting]; decide)]
    simp only [meets_modifyTransport]
    refine (hk.owner_ends .transportError rfl h.toTelling h.told).mono ?_
    rintro _ c' ⟨hleaves, hending, -⟩
    have hstep : Rely c (c'.mapTransport fun t => { t with reportingError := false }) :=
      { hleaves.rely with reporting := hreporting.symm }
    refine Comm.Meets.mono
      (meets_closeDisrupted hk (by decide) ⟨?_, hleaves.settled.pendingClose, ?_⟩) ?_
    · exact { hleaves.settled.toStable.closeDisrupted
        (hleaves.rely.nativeTransport.trans hnative) with
        cipher := fun _ hopen => by cases hopen }
    · exact fun hreport => by cases hreport
    · rintro _ c'' ⟨hleaves', hclosing⟩
      exact ⟨⟨hleaves'.settled, hstep.trans hleaves'.rely, hleaves.silent.trans hleaves'.silent,
        hleaves.owed.trans hleaves'.owed⟩, hclosing⟩

/-- `fail`. -/
theorem meets_fail (hk : k.Sound) (h : Native c) :
    (fail k c).Meets (contract Z) fun _ c' => Leaves none c c' ∧ c'.transport.closing = true :=
  meets_fail_lost hk ⟨⟨{ h.toStable with cipher := fun _ _ hreport => by cases hreport },
    h.pendingClose, h.severed⟩, h.told⟩ h.notReporting (h.driven h.active)

/-- `terminateForBackpressure`. -/
theorem meets_terminateForBackpressure (hk : k.Sound) (h : Native c) :
    (terminateForBackpressure k c).Meets (contract Z) fun _ c' =>
      Leaves none c c' ∧ c'.transport.closing = true := by
  unfold terminateForBackpressure
  simp only [Program.meets_bind, meets_transport, Program.meets_ite, Program.meets_pure]
  split
  · next hclosing => exact ⟨.refl (h.closable.settled hclosing), hclosing⟩
  · refine (hk.owner_ends .backpressure rfl h.toTelling h.told).mono ?_
    rintro _ c' ⟨hleaves, -⟩
    refine (meets_closeDisrupted hk (by decide) (hleaves.keeps h).native.closeDisrupted).mono ?_
    rintro _ c'' ⟨hleaves', hclosing⟩
    exact ⟨hleaves.trans hleaves', hclosing⟩

/-- `updatePoll` changes nothing that matters, or closes. -/
theorem meets_updatePoll (hk : k.Sound) (h : Native c) :
    (updatePoll k c).Meets (contract Z) fun _ c' => Keeps c c' ∧
      (c'.transport.closing = true ∨ c'.transport.pendingBytes = c.transport.pendingBytes) := by
  unfold updatePoll
  simp only [Program.meets_bind, meets_transport, Program.meets_ite, Program.meets_pure,
    meets_modifyTransport]
  split
  · exact ⟨.refl h, .inr trivial⟩
  · next hactive =>
    have hopen : c.transport.closing = false := by simpa [h.active] using hactive
    split
    · exact ⟨.refl h, .inr trivial⟩
    · refine meets_ask.mpr ⟨⟨h.toObserved, fun _ => h.uses hopen⟩, fun polled _ => ?_⟩
      split
      · refine ⟨⟨{ h with }, { Rely.refl c with }, .refl c, rfl, id⟩, .inr rfl⟩
      · refine (meets_fail hk h).mono ?_
        rintro _ c' ⟨hleaves, hclosing⟩
        exact ⟨hleaves.keeps h, .inl hclosing⟩

end NativeTransport

end Eiows
