import Eiows.Lifecycle.Invariant

/-!
# The methods of a WebSocket keep the invariant
-/

namespace Eiows.Lifecycle

variable {W K : Type} [DecidableEq W] [DecidableEq K] {s : Server W K} {w : W} {c : Client}

namespace Server

/-- A client that is not finalized can be closing. -/
theorem keeps_closing (h : c.Sound) (hstate : c.readyState ≠ .closed) :
    Keeps c (c.setReadyState .closing) where
  sound := { h with
    finished := fun hclosed => absurd (h.finished hclosed).2.2.2.2 hstate
    notClosed := fun _ => by simp [Client.setReadyState]
    reopened := by simp [Client.setReadyState, h.reopened, hstate] }
  accepted := rfl
  closed := rfl
  external := rfl
  closeEvents := rfl
  nativeTransport := rfl
  nativeActive := id
  transportSocket := id
  transportClosing := id

theorem Keeps.trans {c₁ c₂ c₃ : Client} (h : Keeps c₁ c₂) (h' : Keeps c₂ c₃) : Keeps c₁ c₃ where
  sound := h'.sound
  accepted := h'.accepted.trans h.accepted
  closed := h'.closed.trans h.closed
  external := h'.external.trans h.external
  closeEvents := h'.closeEvents.trans h.closeEvents
  nativeTransport := h'.nativeTransport.trans h.nativeTransport
  nativeActive := h'.nativeActive ∘ h.nativeActive
  transportSocket := h'.transportSocket ∘ h.transportSocket
  transportClosing := h'.transportClosing ∘ h.transportClosing

/-- An update of a client. Its transport may close, and it may lose its socket. -/
theorem Held.setFree (h : s.Held) {f : Client → Client} (hsound : (f (s.client w)).Sound)
    (haccepted : (f (s.client w)).accepted = (s.client w).accepted)
    (hclosed : (f (s.client w)).closed = (s.client w).closed)
    (hexternal : (f (s.client w)).external = (s.client w).external)
    (hevents : (f (s.client w)).closeEvents = (s.client w).closeEvents)
    (hnative : (f (s.client w)).nativeTransport = (s.client w).nativeTransport)
    (hactive : (s.client w).nativeActive = true → (f (s.client w)).nativeActive = true)
    (hsocket : (s.client w).transportSocket = false → (f (s.client w)).transportSocket = false)
    (hclosing : (s.client w).transportClosing = true → (f (s.client w)).transportClosing = true) :
    (s.set w f).Held :=
  h.set ⟨hsound, haccepted, hclosed, hexternal, hevents, hnative, hactive, hsocket, hclosing⟩

/-- What of a client the invariant relates to the stack and to the server. -/
def heldFields (c : Client) :=
  (c.accepted, c.closed, c.external, c.closeEvents, c.nativeTransport, c.nativeActive,
    c.transportSocket, c.transportClosing)

/-- An update of a client that leaves these alone. -/
theorem Held.update (h : s.Held) {f : Client → Client} (hsound : (f (s.client w)).Sound)
    (hf : ∀ c, heldFields (f c) = heldFields c) : (s.set w f).Held := by
  have hfields := hf (s.client w)
  simp only [heldFields, Prod.mk.injEq] at hfields
  obtain ⟨haccepted, hclosed, hexternal, hevents, hnative, hactive, hsocket, hclosing⟩ := hfields
  exact h.setFree hsound haccepted hclosed hexternal hevents hnative (hactive ▸ id) (hsocket ▸ id)
    (hclosing ▸ id)

theorem Held.setClosing (h : s.Held) (hstate : (s.client w).readyState ≠ .closed) :
    (s.set w fun c => c.setReadyState .closing).Held :=
  h.set (keeps_closing (h.sound w) hstate)

omit [DecidableEq W] [DecidableEq K] in
/-- A frame of a method that is neither counted nor has callbacks to call. -/
theorem Frame.plain {frame : Frame W K} (h : frame.isPlain = true) : Frame.Plain frame := by
  constructor
  · rintro w rfl
    simp [Frame.isPlain] at h
  · rintro w rfl
    simp [Frame.isPlain] at h
  · unfold Frame.isPlain at h
    split at h <;> simp_all [Frame.callbacks]

theorem Held.pushListening (h : s.Held) : (s.push .listening).Held :=
  h.push trivial (Frame.plain rfl)

/-- `closeNow`. -/
theorem Held.closeNow (h : s.Held) : (s.closeNow w).Held := by
  have hset : (s.set w fun c => { c with transportClosing := true, pendingBytes := 0 }).Held :=
    h.setFree { h.sound w with } rfl rfl rfl rfl rfl id id fun _ => rfl
  rw [Server.closeNow]
  split
  case isTrue => exact h
  case isFalse =>
    dsimp only
    split
    case isTrue => exact hset.pushListening
    case isFalse => exact hset

omit [DecidableEq K] in
/-- `closeNow` changes no field of a client but those of its transport. -/
theorem closeNow_field {β : Type} (P : Client → β)
    (hP : ∀ c : Client, P { c with transportClosing := true, pendingBytes := 0 } = P c) (a : W) :
    P ((s.closeNow w).client a) = P (s.client a) := by
  have hset : P ((s.set w fun c =>
      { c with transportClosing := true, pendingBytes := 0 }).client a) = P (s.client a) := by
    by_cases ha : a = w
    · rw [ha, set_client_self]
      exact hP _
    · rw [set_client_of_ne ha]
  rw [Server.closeNow]
  split
  case isTrue => rfl
  case isFalse =>
    dsimp only
    split <;> exact hset

/-- A response is written over an active transport only. -/
theorem Held.notWriting (h : s.Held) (hactive : (s.client w).nativeActive = false) :
    .writing w ∉ s.stack := by
  intro hwriting
  cases hactive.symm.trans (h.entered _ hwriting).2.2.2

/-- The upgrade is not pending any more. -/
theorem Held.setDone (h : s.Held) :
    (s.set w fun c => { c with upgradePending := false }).Held := by
  have hsound := h.sound w
  refine h.update ?_ fun _ => rfl
  exact { hsound with
    finished := fun hclosed => by
      obtain ⟨h₁, -, h₃, h₄, h₅⟩ := hsound.finished hclosed
      exact ⟨h₁, rfl, h₃, h₄, h₅⟩
    waiting := fun hwaiting => ⟨rfl, (hsound.waiting hwaiting).2⟩ }

/-- A pending upgrade belongs to a client that is not finalized. -/
theorem Held.pending (h : s.Held) (hpending : (s.client w).upgradePending = true) :
    (s.client w).accepted = true ∧ (s.client w).readyState ≠ .closed := by
  have hsound := h.sound w
  constructor
  · by_contra hnot
    cases hpending.symm.trans (hsound.waiting (by simpa using hnot)).1
  · by_cases hclosed : (s.client w).closed = true
    · cases hpending.symm.trans (hsound.finished hclosed).2.1
    · exact hsound.notClosed (by simpa using hclosed)

/-- `_abortPendingUpgrade`. -/
theorem Held.abortPendingUpgrade (h : s.Held) (sendResponse : Bool) :
    (s.abortPendingUpgrade sendResponse w).Held := by
  rw [Server.abortPendingUpgrade]
  split
  case isTrue => exact h
  case isFalse hpending =>
  rw [Bool.not_eq_true', Bool.not_eq_false] at hpending
  obtain ⟨haccepted, hstate⟩ := h.pending hpending
  have hclosing := h.setClosing hstate
  dsimp only
  generalize hs₁ : (if ((s.set w fun c => c.setReadyState .closing).client w).nativeTransport &&
      ((s.set w fun c => c.setReadyState .closing).client w).external then
      (s.set w fun c => c.setReadyState .closing).closeNow w
    else s.set w fun c => c.setReadyState .closing) = s₁
  obtain ⟨h₁, haccepted₁⟩ : s₁.Held ∧ (s₁.client w).accepted = true := by
    subst hs₁
    split
    case isTrue =>
      refine ⟨hclosing.closeNow, ?_⟩
      rw [closeNow_field Client.accepted fun _ => rfl, set_client_self]
      exact haccepted
    case isFalse =>
      rw [set_client_self]
      exact ⟨hclosing, haccepted⟩
  split
  case isTrue => exact h₁.update { h₁.sound w with } fun _ => rfl
  case isFalse =>
    split
    case isTrue => exact h₁.setDone
    case isFalse hactive =>
      refine h₁.setDone.finalizeClose ?_ (h₁.setDone.notWriting (by simpa using hactive))
      rwa [set_client_self]

/-- The end of `_fail` and `terminate`. -/
theorem Held.release (h : s.Held) (haccepted : (s.client w).accepted = true) :
    (s.release w).Held := by
  rw [Server.release]
  split
  case isTrue =>
    have hpush : (s.push (.releasing w)).Held := h.push haccepted (Frame.plain rfl)
    exact hpush.closeNow
  case isFalse hnative =>
    split
    case isTrue => exact h.update { h.sound w with } fun _ => rfl
    case isFalse =>
      refine h.finalizeClose haccepted fun hwriting => ?_
      obtain ⟨-, htransport, -, hactive⟩ := h.entered _ hwriting
      have hclosed : (s.client w).closed = false := by
        by_contra hclosed
        have hfinished := (h.sound w).finished (by simpa using hclosed)
        cases hactive.symm.trans hfinished.2.2.1
      have hexternal := ((h.sound w).live haccepted hclosed).1
      exact hnative (by simp [htransport, hexternal])

/-- `_fail`, after the event `error`. -/
theorem Held.continueFail (h : s.Held) (haccepted : (s.client w).accepted = true) :
    (s.continueFail w).Held := by
  rw [Server.continueFail]
  split
  case isTrue => exact h.abortPendingUpgrade false
  case isFalse => exact h.release haccepted

/-- `_fail`. -/
theorem Held.fail (h : s.Held) (haccepted : (s.client w).accepted = true) : (s.fail w).Held := by
  rw [Server.fail]
  split
  case isTrue => exact h
  case isFalse hstate =>
    have hclosing := h.setClosing hstate
    dsimp only
    split
    case isTrue =>
      refine hclosing.continueFail ?_
      rw [set_client_self]
      exact haccepted
    case isFalse =>
      refine Held.push (hclosing.update { hclosing.sound w with } ?_) ?_ (Frame.plain rfl)
      · exact fun _ => rfl
      · simp only [Entered, set_client_self]
        exact haccepted

/-- `terminate`. -/
theorem Held.terminate (h : s.Held) (haccepted : (s.client w).accepted = true) :
    (s.terminate w).Held := by
  rw [Server.terminate]
  split
  case isTrue => exact h
  case isFalse hstate =>
    split
    case isTrue => exact h.abortPendingUpgrade false
    case isFalse =>
      refine (h.setClosing hstate).release ?_
      rw [set_client_self]
      exact haccepted

/-- `close`. -/
theorem Held.close (h : s.Held) (haccepted : (s.client w).accepted = true) (valid : Bool) :
    (s.close w valid).Held := by
  rw [Server.close]
  split
  case isTrue => exact h
  case isFalse hstate =>
  simp only [Bool.or_eq_true, decide_eq_true_eq, not_or] at hstate
  split
  case isTrue => exact h.abortPendingUpgrade true
  case isFalse =>
  split
  case isTrue => exact h
  case isFalse =>
    have hset : (s.set w fun c => { c.setReadyState .closing with closeTimer := true }).Held := by
      refine h.set ((keeps_closing (h.sound w) hstate.2).trans
        ⟨?_, rfl, rfl, rfl, rfl, rfl, id, id, id⟩)
      have hsound := (keeps_closing (h.sound w) hstate.2).sound
      exact { hsound with
        waiting := fun hwaiting => absurd (hwaiting.symm.trans haccepted) (by decide) }
    split
    case isTrue =>
      refine hset.push ?_ (Frame.plain rfl)
      simp only [Entered, set_client_self]
      exact haccepted
    case isFalse => exact hset.pushListening

/-- `activate`. -/
theorem Held.activate (h : s.Held) (haccepted : (s.client w).accepted = true)
    (hnative : (s.client w).nativeTransport = true) (hsocket : (s.client w).transportSocket = false)
    (hwriting : .writing w ∉ s.stack) : (s.activate w).Held := by
  rw [Server.activate]
  split
  case isTrue =>
    refine h.setDone.finalizeClose ?_ hwriting
    rwa [set_client_self]
  case isFalse hready =>
    simp only [Bool.or_eq_true, not_or, Bool.not_eq_true', Bool.not_eq_false,
      decide_eq_true_eq, ne_eq, not_not] at hready
    have hset : (s.set w fun c => { c with transportActive := true }).Held := by
      refine h.update ?_ fun _ => rfl
      exact { h.sound w with
        waiting := fun hwaiting => absurd (hwaiting.symm.trans haccepted) (by decide) }
    refine hset.push ?_ (Frame.plain rfl)
    simp only [Entered, set_client_self]
    refine ⟨haccepted, hnative, hsocket, fun hclosed => ?_⟩
    cases hready.1.1.symm.trans ((h.sound w).finished hclosed).2.2.2.1

/-- The end of an upgrade. -/
theorem Held.opened (h : s.Held) (hstate : (s.client w).readyState ≠ .closed) :
    (s.set w Client.opened).Held := by
  have hsound := h.sound w
  refine h.update ?_ fun _ => rfl
  exact { hsound with
    finished := fun hclosed => absurd (hsound.finished hclosed).2.2.2.2 hstate
    notClosed := fun _ => by simp [Client.opened, Client.setReadyState]
    waiting := fun hwaiting => ⟨rfl, (hsound.waiting hwaiting).2⟩
    reopened := by simp [Client.opened, Client.setReadyState, hsound.reopened, hstate] }

/-- A client that is not accepted changes: its session is made, or disposed, or it is
accepted. -/
theorem Held.change (h : s.Held) (hwaiting : (s.client w).accepted = false)
    (stack : List (Frame W K)) (clients : List W) (hsound : c.Sound) (hclosed : c.closed = false)
    (hevents : c.closeEvents = (s.client w).closeEvents)
    (hheaders : stack.count (.headers w) = (c.external && !c.accepted).toNat)
    (hothers : ∀ a, a ≠ w → stack.count (.headers a) = s.stack.count (.headers a))
    (hremoving : ∀ a, stack.count (.removing a) = s.stack.count (.removing a))
    (hframes : ∀ frame ∈ stack, frame ∈ s.stack ∨ frame = .headers w)
    (hcallbacks : stack.flatMap Frame.callbacks = s.stack.flatMap Frame.callbacks)
    (hclients : (c.accepted = false ∧ clients = s.clients) ∨
      (c.accepted = true ∧ clients = s.clients ++ [w] ∧ s.closing = false ∧ s.closed = false)) :
    ({ s with client := Function.update s.client w c, stack, clients } : Server W K).Held := by
  have hold : (s.client w).closed = false := by
    by_contra hfinished
    cases hwaiting.symm.trans ((h.sound w).finished (by simpa using hfinished)).1
  have hout : w ∉ s.clients := fun hw =>
    absurd (hwaiting.symm.trans ((h.members w).mp hw).1) (by decide)
  refine { h with
    sound := fun a => ?sound, members := fun a => ?members, nodup := ?nodup,
    emitted := fun a => ?emitted, headers := fun a => ?headers,
    entered := fun frame hframe => ?entered, finished := fun hfinished => ?finished,
    finishing := fun hticks => ?finishing, callbacks := fun k => ?callbacks }
  case sound =>
    by_cases ha : a = w
    · simpa [ha] using hsound
    · simpa [ha] using h.sound a
  case members =>
    by_cases ha : a = w
    · rcases hclients with ⟨haccepted, rfl⟩ | ⟨haccepted, rfl, -⟩
      · simp [ha, hout, haccepted]
      · simp [ha, haccepted, hclosed]
    · rcases hclients with ⟨-, rfl⟩ | ⟨-, rfl, -⟩
      · simp [ha, h.members a]
      · simp [ha, h.members a]
  case nodup =>
    rcases hclients with ⟨-, rfl⟩ | ⟨-, rfl, -⟩
    · exact h.nodup
    · rw [List.nodup_append]
      refine ⟨h.nodup, List.nodup_singleton w, fun a ha b hb => ?_⟩
      rw [List.mem_singleton] at hb
      rintro rfl
      exact hout (hb ▸ ha)
  case emitted =>
    have hemitted := h.emitted a
    rw [hremoving]
    by_cases ha : a = w
    · subst ha
      rw [hold] at hemitted
      simpa [hclosed, hevents] using hemitted
    · simpa [ha] using hemitted
  case headers =>
    by_cases ha : a = w
    · subst ha
      simpa using hheaders
    · rw [hothers a ha]
      simpa [ha] using h.headers a
  case entered =>
    rcases hframes frame hframe with hframe | rfl
    · refine (h.entered frame hframe).congr id id (fun a ha => ?_) (fun a _ ha hnative hsocket => ?_)
        (fun a _ _ hbefore => ?_) (fun a _ hactive => ?_)
      · have haw : a ≠ w := by
          rintro rfl
          cases hwaiting.symm.trans ha
        simpa [haw] using ha
      · have haw : a ≠ w := by
          rintro rfl
          cases hwaiting.symm.trans ha
        simpa [haw] using ⟨hnative, hsocket⟩
      · by_cases haw : a = w
        · simp [haw, hclosed]
        · simpa [haw] using hbefore
      · have haw : a ≠ w := by
          rintro rfl
          cases hactive.symm.trans ((h.sound a).waiting hwaiting).2.1
        simpa [haw] using hactive
    · trivial
  case finished =>
    rcases hclients with ⟨-, rfl⟩ | ⟨-, -, -, hnot⟩
    · exact h.finished hfinished
    · cases hnot.symm.trans hfinished
  case finishing =>
    rcases hclients with ⟨-, rfl⟩ | ⟨-, -, hnot, -⟩
    · exact h.finishing hticks
    · cases hnot.symm.trans (h.finishing hticks).1
  case callbacks =>
    rw [hcallbacks]
    exact h.callbacks k

/-- A call of `handleUpgrade` in the listeners of `headers` has a session and no client. -/
theorem Held.upgrading (h : s.Held) {stack : List (Frame W K)}
    (hstack : s.stack = .headers w :: stack) :
    (s.client w).external = true ∧ (s.client w).accepted = false ∧
      stack.count (.headers w) = 0 := by
  have hheaders := h.headers w
  rw [hstack, List.count_cons_self] at hheaders
  have hle := Bool.toNat_le ((s.client w).external && !(s.client w).accepted)
  have hboth : ((s.client w).external && !(s.client w).accepted) = true := by
    by_contra hnot
    rw [Bool.not_eq_true] at hnot
    rw [hnot, Bool.toNat_false] at hheaders
    omega
  simp only [Bool.and_eq_true, Bool.not_eq_true'] at hboth
  exact ⟨hboth.1, hboth.2, by omega⟩

/-- The end of a call of `handleUpgrade` in the listeners of `headers`. -/
theorem Held.leaveHeaders (h : s.Held) {stack : List (Frame W K)} (clients : List W)
    (hstack : s.stack = .headers w :: stack) (hsound : c.Sound) (hclosed : c.closed = false)
    (hevents : c.closeEvents = (s.client w).closeEvents)
    (hexternal : (c.external && !c.accepted) = false)
    (hclients : (c.accepted = false ∧ clients = s.clients) ∨
      (c.accepted = true ∧ clients = s.clients ++ [w] ∧ s.closing = false ∧ s.closed = false)) :
    ({ s with client := Function.update s.client w c, stack, clients } : Server W K).Held := by
  obtain ⟨-, hwaiting, hcount⟩ := h.upgrading hstack
  refine h.change hwaiting _ _ hsound hclosed hevents ?_ (fun a ha => ?_) (fun a => ?_)
    (fun frame hframe => .inl (hstack ▸ List.mem_cons_of_mem _ hframe)) ?_ hclients
  · rw [hcount, hexternal, Bool.toNat_false]
  · rw [hstack, List.count_cons_of_ne]
    simpa using Ne.symm ha
  · rw [hstack, List.count_cons_of_ne (by simp)]
  · rw [hstack]
    rfl

/-- A session whose upgrade goes no further is disposed. -/
theorem Held.dispose (h : s.Held) {stack : List (Frame W K)}
    (hstack : s.stack = .headers w :: stack) :
    (({ s with stack } : Server W K).set w fun c =>
      { c with external := false, disposals := c.disposals + 1 }).Held := by
  obtain ⟨hexternal, hwaiting, -⟩ := h.upgrading hstack
  have hsound := h.sound w
  have hclosed : (s.client w).closed = false := by
    by_contra hfinished
    cases hwaiting.symm.trans (hsound.finished (by simpa using hfinished)).1
  refine h.leaveHeaders _ hstack ?_ hclosed rfl (by simp) (.inl ⟨hwaiting, rfl⟩)
  have hsession := hsound.session (.inl hexternal)
  exact { hsound with
    finished := fun hfinished => absurd (hclosed.symm.trans hfinished) (by decide)
    live := fun haccepted => absurd (hwaiting.symm.trans haccepted) (by decide)
    session := fun _ => hsession
    disposals := by simp [hsound.disposals, hsession, hexternal] }

/-- `handleUpgrade`, after the event `headers`. -/
theorem Held.accept (h : s.Held) {stack : List (Frame W K)}
    (hstack : s.stack = .headers w :: stack) : (({ s with stack } : Server W K).accept w).Held := by
  obtain ⟨hexternal, hwaiting, -⟩ := h.upgrading hstack
  have hsound := h.sound w
  have hclosed : (s.client w).closed = false := by
    by_contra hfinished
    cases hwaiting.symm.trans (hsound.finished (by simpa using hfinished)).1
  rw [Server.accept]
  split
  case isTrue => exact h.dispose hstack
  case isFalse hopen =>
  simp only [Bool.or_eq_true, not_or, Bool.not_eq_true] at hopen
  have hsession := hsound.session (.inl hexternal)
  have haccept := h.leaveHeaders (s.clients ++ [w]) hstack (c := { s.client w with
      accepted := true, nativeTransport := (s.client w).attachable, server := true,
      transportSocket := true, upgradePending := true, readyState := .connecting,
      destroyScheduled := (s.client w).attachable })
    { hsound with
      finished := fun hfinished => absurd (hclosed.symm.trans hfinished) (by decide)
      live := fun _ _ => ⟨hexternal, rfl⟩
      notClosed := fun _ => by simp
      waiting := fun hfalse => absurd hfalse (by simp)
      socket := fun _ _ => rfl
      scheduled := fun hscheduled =>
        absurd (hscheduled.symm.trans (hsound.waiting hwaiting).2.2.2.1) (by decide)
      session := fun _ => hsession }
    hclosed rfl (by simp) (.inr ⟨rfl, rfl, hopen⟩)
  have hlate : (s.late || s.closing || s.closed) = false := by
    simp [h.notLate, hopen]
  have hheld : Held { ({ s with stack } : Server W K).set w fun c => { c with
      accepted := true, nativeTransport := c.attachable, server := true, transportSocket := true,
      upgradePending := true, readyState := .connecting, destroyScheduled := c.attachable } with
      clients := s.clients ++ [w], late := s.late || s.closing || s.closed } :=
    { haccept with notLate := hlate }
  dsimp only
  split
  case isTrue => exact hheld
  case isFalse =>
    refine hheld.push ?_ (Frame.plain rfl)
    simp [Entered, Server.set]

/-- `handleUpgrade`, up to the event `headers`. -/
theorem Held.upgrade (h : s.Held) (hfresh : (s.client w).session = false)
    (attachable encrypted : Bool) (response : ℕ) :
    ((s.set w fun c => { c with
      attachable, encrypted, response, session := true, external := true }).push
        (.headers w)).Held := by
  have hsound := h.sound w
  have hwaiting : (s.client w).accepted = false := by
    by_contra haccepted
    cases hfresh.symm.trans (hsound.session (.inr (by simpa using haccepted)))
  have hexternal : (s.client w).external = false := by
    by_contra hexternal
    cases hfresh.symm.trans (hsound.session (.inl (by simpa using hexternal)))
  have hclosed : (s.client w).closed = false := by
    by_contra hfinished
    cases hwaiting.symm.trans (hsound.finished (by simpa using hfinished)).1
  have hcount : s.stack.count (.headers w) = 0 := by
    rw [h.headers w, hexternal]
    rfl
  refine h.change hwaiting (.headers w :: s.stack) s.clients ?_ hclosed rfl ?_
    (fun a ha => ?_) (fun a => ?_) (fun frame hframe => ?_) ?_ (.inl ⟨hwaiting, rfl⟩)
  · exact { hsound with
      finished := fun hfinished => absurd (hclosed.symm.trans hfinished) (by decide)
      live := fun haccepted => absurd (hwaiting.symm.trans haccepted) (by decide)
      session := fun _ => rfl
      disposals := by simp [hsound.disposals, hfresh] }
  · rw [List.count_cons_self, hcount]
    simp [hwaiting]
  · rw [List.count_cons_of_ne]
    simpa using Ne.symm ha
  · rw [List.count_cons_of_ne (by simp)]
  · rcases List.mem_cons.mp hframe with rfl | hframe
    · exact .inr rfl
    · exact .inl hframe
  · rfl

/-- The event `close` of a WebSocket. -/
theorem Held.emitClose (h : s.Held) {stack : List (Frame W K)}
    (hstack : s.stack = .removing w :: stack) :
    (({ s with stack } : Server W K).set w fun c =>
      { c with closeEvents := c.closeEvents + 1 }).Held := by
  have hsame : ∀ a (P : Client → Prop),
      (∀ c : Client, P { c with closeEvents := c.closeEvents + 1 } ↔ P c) →
      (P ((({ s with stack } : Server W K).set w fun c =>
        { c with closeEvents := c.closeEvents + 1 }).client a) ↔ P (s.client a)) := by
    intro a P hP
    by_cases ha : a = w
    · subst ha
      rw [set_client_self]
      exact hP _
    · rw [set_client_of_ne ha]
  refine { h with
    sound := fun a => ?sound, members := fun a => ?members, emitted := fun a => ?emitted,
    headers := fun a => ?headers, entered := fun frame hframe => ?entered,
    callbacks := fun k => ?callbacks }
  case sound =>
    refine (hsame a Client.Sound fun c => ⟨fun hc => { hc with }, fun hc => { hc with }⟩).mpr
      (h.sound a)
  case members =>
    exact (h.members a).trans
      (hsame a (fun c => c.accepted = true ∧ c.closed = false) fun _ => Iff.rfl).symm
  case emitted =>
    have hemitted := h.emitted a
    rw [hstack] at hemitted
    by_cases ha : a = w
    · subst ha
      rw [List.count_cons_self] at hemitted
      rw [set_client_self]
      simp only [set_stack]
      omega
    · rw [List.count_cons_of_ne (by simpa using Ne.symm ha)] at hemitted
      rw [set_client_of_ne ha]
      exact hemitted
  case headers =>
    have hheaders := h.headers a
    rw [hstack, List.count_cons_of_ne (by simp)] at hheaders
    have hbool := hsame a (fun c => stack.count (.headers a) = (c.external && !c.accepted).toNat)
      fun _ => Iff.rfl
    exact hbool.mpr hheaders
  case entered =>
    refine (h.entered frame (hstack ▸ List.mem_cons_of_mem _ hframe)).congr id id (fun a => ?_)
      (fun a _ _ hnative hsocket => ?_) (fun a _ _ hold => ?_) (fun a _ => ?_)
    · exact (hsame a (fun c => c.accepted = true) fun _ => Iff.rfl).mpr
    · exact (hsame a (fun c => c.nativeTransport = true ∧ c.transportSocket = false)
        fun _ => Iff.rfl).mpr ⟨hnative, hsocket⟩
    · exact (hsame a (fun c => c.closed = true → c.transportClosing = true) fun _ => Iff.rfl).mpr
        hold
    · exact (hsame a (fun c => c.nativeActive = true) fun _ => Iff.rfl).mpr
  case callbacks =>
    have hcallbacks := h.callbacks k
    rw [hstack, List.flatMap_cons] at hcallbacks
    exact hcallbacks

/-- `_finishClose` calls the next of its callbacks. -/
theorem Held.notify (h : s.Held) {stack : List (Frame W K)} {k : K} {rest : List K}
    (hstack : s.stack = .notifying (k :: rest) :: stack) :
    (({ s with
      stack, called := k :: s.called, early := s.early || !s.clients.isEmpty } : Server W K).push
        (.notifying rest)).Held := by
  have hclosed : s.closed = true :=
    h.entered (.notifying (k :: rest)) (hstack ▸ List.mem_cons_self ..)
  have hclients := (h.finished hclosed).2
  refine { h with
    emitted := fun a => ?emitted, headers := fun a => ?headers,
    entered := fun frame hframe => ?entered, callbacks := fun a => ?callbacks,
    notEarly := ?notEarly }
  case emitted =>
    have hemitted := h.emitted a
    rw [hstack, List.count_cons_of_ne (by simp)] at hemitted
    rw [Server.push, List.count_cons_of_ne (by simp)]
    exact hemitted
  case headers =>
    have hheaders := h.headers a
    rw [hstack, List.count_cons_of_ne (by simp)] at hheaders
    rw [Server.push, List.count_cons_of_ne (by simp)]
    exact hheaders
  case entered =>
    rcases List.mem_cons.mp hframe with rfl | hframe
    · exact hclosed
    · exact (h.entered frame (hstack ▸ List.mem_cons_of_mem _ hframe)).congr id id (fun _ => id)
        (fun _ _ _ h₁ h₂ => ⟨h₁, h₂⟩) (fun _ _ _ => id) (fun _ _ => id)
  case callbacks =>
    have hcallbacks := h.callbacks a
    rw [hstack] at hcallbacks
    simp only [Server.push, List.flatMap_cons, List.count_append, Frame.callbacks,
      List.count_cons] at hcallbacks ⊢
    omega
  case notEarly => simp [Server.push, h.notEarly, hclients]

end Server

end Eiows.Lifecycle
