import Eiows.Lifecycle.Finalisation

/-!
# The runs of a server

Every event keeps the invariant, whatever is on the stack.
-/

namespace Eiows.Lifecycle

variable {W K : Type} [DecidableEq W] [DecidableEq K] {s s' : Server W K} {w : W}
  {frame : Frame W K} {stack : List (Frame W K)}

namespace Server

/-- A client whose transport is active is not finalized. -/
theorem Held.notClosed (h : s.Held) (hactive : (s.client w).nativeActive = true) :
    (s.client w).readyState ≠ .closed := by
  apply (h.sound w).notClosed
  by_contra hclosed
  cases hactive.symm.trans ((h.sound w).finished (by simpa using hclosed)).2.2.1

/-- `_onNativeBackpressure`, before `closeNow`. -/
theorem Held.setBackpressure (h : s.Held) :
    (s.set w fun c => if c.readyState ≠ .closed then c.setReadyState .closing else c).Held := by
  by_cases hstate : (s.client w).readyState = .closed
  · refine h.set ⟨?_, ?_, ?_, ?_, ?_, ?_, ?_, ?_, ?_⟩ <;> simp [hstate, h.sound w]
  · refine h.set ?_
    rw [if_pos hstate]
    exact keeps_closing (h.sound w) hstate

/-- `activateTransport` returns zero. -/
theorem Held.setActive (h : s.Held)
    (hclosed : (s.client w).closed = false) (haccepted : (s.client w).accepted = true) :
    (s.set w fun c => { c with nativeActive := true }).Held := by
  have hsound := h.sound w
  refine h.setFree ?_ rfl rfl rfl rfl rfl (fun _ => rfl) id id
  exact { hsound with
    finished := fun hfinished => absurd (hclosed.symm.trans hfinished) (by decide)
    waiting := fun hwaiting => absurd (hwaiting.symm.trans haccepted) (by decide) }

/-- The end of an upgrade, and its callback. -/
theorem Held.activated (h : s.Held) (hstate : (s.client w).readyState ≠ .closed)
    (haccepted : (s.client w).accepted = true) :
    ((s.set w Client.opened).push (.activated w)).Held := by
  refine (h.opened hstate).push ?_ (Frame.plain rfl)
  simp only [Entered, set_client_self]
  exact haccepted

/-- `fail` of the transport. -/
theorem Held.failTransport (h : s.Held) (haccepted : (s.client w).accepted = true) :
    (s.failTransport w).Held := by
  rw [Server.failTransport]
  split
  case isTrue => exact h.closeNow
  case isFalse hstate =>
    have hclosing := h.setClosing hstate
    dsimp only
    split
    case isTrue => exact hclosing.closeNow
    case isFalse =>
      refine Held.push (hclosing.update { hclosing.sound w with } ?_) ?_ (Frame.plain rfl)
      · exact fun _ => rfl
      · simp only [Entered, set_client_self]
        exact haccepted

/-- The native write of the response. -/
theorem Held.wrote (h : s.Held) (hstack : s.stack = .writing w :: stack) (pending : ℕ) :
    (({ s with stack } : Server W K).wrote w pending).Held := by
  obtain ⟨haccepted, -, -, hactive⟩ := h.entered (.writing w) (hstack ▸ List.mem_cons_self ..)
  have hpop := h.pop hstack (Frame.plain rfl)
  have hpending : (({ s with stack } : Server W K).set w fun c =>
      { c with pendingBytes := pending }).Held :=
    hpop.update { hpop.sound w with } fun _ => rfl
  have hstate : ((({ s with stack } : Server W K).set w fun c =>
      { c with pendingBytes := pending }).client w).readyState ≠ .closed := by
    rw [set_client_self]
    exact h.notClosed hactive
  have haccepted' : ((({ s with stack } : Server W K).set w fun c =>
      { c with pendingBytes := pending }).client w).accepted = true := by
    rw [set_client_self]
    exact haccepted
  rw [Server.wrote]
  split
  case isFalse => exact hpending.activated hstate haccepted'
  case isTrue =>
    refine hpending.setBackpressure.closeNow.activated ?_ ?_
    · rw [closeNow_field Client.readyState fun _ => rfl, set_client_self, if_pos hstate]
      simp [Client.setReadyState]
    · rw [closeNow_field Client.accepted fun _ => rfl, set_client_self, if_pos hstate]
      exact haccepted'

/-- The function on top of the stack goes on. -/
theorem Held.resume (h : s.Held) (hstack : s.stack = frame :: stack)
    (hresume : ({ s with stack } : Server W K).resume frame = some s') : s'.Held := by
  have hentered := h.entered frame (hstack ▸ List.mem_cons_self ..)
  cases frame with
  | headers w =>
    cases hresume
    exact h.accept hstack
  | response w =>
    have hpop := h.pop hstack (Frame.plain rfl)
    simp only [Server.resume] at hresume
    split_ifs at hresume with hready
    · cases hresume
      exact hpop
    · cases hresume
      simp only [Bool.or_eq_true, not_or, decide_eq_true_eq, ne_eq, not_not] at hready
      refine (hpop.opened ?_).push ?_ (Frame.plain rfl)
      · rw [hready.2]
        decide
      · simp only [Entered, set_client_self]
        exact hentered
  | accepted w | activated w | replying w | listening =>
    cases hresume
    exact h.pop hstack (Frame.plain rfl)
  | activation w =>
    obtain ⟨haccepted, hnative, hsocket, hfinished⟩ := hentered
    have hpop := h.pop hstack (Frame.plain rfl)
    simp only [Server.resume] at hresume
    split at hresume
    case isTrue => cases hresume
    case isFalse hclosing =>
    have hclosed : (s.client w).closed = false := by
      by_contra hclosed
      exact hclosing (hfinished (by simpa using hclosed))
    have hactive := hpop.setActive (w := w) hclosed haccepted
    split at hresume
    case isTrue =>
      cases hresume
      refine hactive.fail ?_
      rw [set_client_self]
      exact haccepted
    case isFalse =>
      cases hresume
      refine hactive.push ?_ (Frame.plain rfl)
      simp only [Entered, set_client_self]
      exact ⟨haccepted, hnative, hsocket, trivial⟩
  | writing w =>
    simp only [Server.resume] at hresume
    split_ifs at hresume
    cases hresume
    exact (h.pop hstack (Frame.plain rfl)).activated (h.notClosed hentered.2.2.2) hentered.1
  | reporting w =>
    cases hresume
    exact (h.pop hstack (Frame.plain rfl)).closeNow
  | failing w =>
    cases hresume
    exact (h.pop hstack (Frame.plain rfl)).continueFail hentered
  | releasing w =>
    have hpop := h.pop hstack (Frame.plain rfl)
    simp only [Server.resume] at hresume
    split_ifs at hresume with hactive
    · cases hresume
      exact hpop
    · cases hresume
      exact hpop.finalizeClose hentered (hpop.notWriting (by simpa using hactive))
  | removing w =>
    cases hresume
    exact (h.emitClose hstack).pushListening
  | notifying callbacks =>
    cases callbacks with
    | nil =>
      cases hresume
      exact h.pop hstack ⟨by simp, by simp, rfl⟩
    | cons k rest =>
      cases hresume
      exact (h.notify hstack).pushListening
  | sweeping ws =>
    have hpop := h.pop hstack (Frame.plain rfl)
    cases ws with
    | nil =>
      simp only [Server.resume] at hresume
      split_ifs at hresume with hempty
      · cases hresume
        exact { hpop with
          finishing := fun _ => ⟨hentered.1, List.isEmpty_iff.mp hempty⟩
          calling := fun k hk => by
            rcases List.mem_append.mp hk with hk | hk
            · exact h.calling k hk
            · cases List.mem_singleton.mp hk
          callbacks := fun k => by
            have hcallbacks := hpop.callbacks k
            rw [List.count_append, List.count_singleton]
            exact hcallbacks }
      · cases hresume
        exact hpop
    | cons w rest =>
      cases hresume
      have hpush : (({ s with stack } : Server W K).push (.sweeping rest)).Held :=
        hpop.push ⟨hentered.1, fun a ha => hentered.2 a (List.mem_cons_of_mem _ ha)⟩ (Frame.plain rfl)
      exact hpush.close (hentered.2 w (List.mem_cons_self ..)) true

/-- An exception reaches the function on top of the stack. -/
theorem Held.catchException (h : s.Held) (hstack : s.stack = frame :: stack)
    (hcatch : ({ s with stack } : Server W K).catchException frame = some s') : s'.Held := by
  have hentered := h.entered frame (hstack ▸ List.mem_cons_self ..)
  cases frame with
  | headers w =>
    cases hcatch
    exact (h.dispose hstack).pushListening
  | response w | accepted w =>
    cases hcatch
    exact (h.pop hstack (Frame.plain rfl)).terminate hentered
  | activated w | replying w =>
    cases hcatch
    exact (h.pop hstack (Frame.plain rfl)).fail hentered
  | reporting w =>
    cases hcatch
    exact (h.pop hstack (Frame.plain rfl)).closeNow
  | failing w | sweeping ws | listening =>
    cases hcatch
    exact h.pop hstack (Frame.plain rfl)
  | activation w | writing w | releasing w | removing w | notifying ks => cases hcatch

/-- The native method on top of the stack fails. -/
theorem Held.failed (h : s.Held) (hstack : s.stack = frame :: stack)
    (hfailed : ({ s with stack } : Server W K).failed frame = some s') : s'.Held := by
  have hentered := h.entered frame (hstack ▸ List.mem_cons_self ..)
  cases frame with
  | activation w =>
    cases hfailed
    exact (h.pop hstack (Frame.plain rfl)).fail hentered.1
  | writing w =>
    simp only [Server.failed] at hfailed
    split_ifs at hfailed
    cases hfailed
    exact (h.pop hstack (Frame.plain rfl)).fail hentered.1
  | replying w =>
    cases hfailed
    exact (h.pop hstack (Frame.plain rfl)).closeNow
  | headers _ | response _ | accepted _ | activated _ | reporting _ | failing _ | releasing _
  | removing _ | notifying _ | sweeping _ | listening => cases hfailed

/-- The socket of a client has emitted `close`. -/
theorem Held.setSocketClosed (h : s.Held) :
    (s.set w fun c => { c with socketClosed := true }).Held :=
  h.setFree { h.sound w with socket := fun _ hfalse => absurd hfalse (by simp) } rfl rfl rfl rfl
    rfl id id id

/-- The event `close` of the socket of a native upgrade. -/
theorem Held.transferred (h : s.Held) (haccepted : (s.client w).accepted = true)
    (hnative : (s.client w).nativeTransport = true)
    (hclosed : (s.client w).socketClosed = true) (hwriting : .writing w ∉ s.stack) :
    let s' := s.set w fun c => { c with transportSocket := false }
    s'.Held ∧ ((s'.set w fun c => { c with upgradePending := false }).finalizeClose w).Held ∧
      (s'.set w fun c => { c with activationScheduled := true }).Held ∧ (s'.activate w).Held := by
  intro s'
  have hsound := h.sound w
  have hset : s'.Held := by
    refine h.setFree ?_ rfl rfl rfl rfl rfl id (fun _ => rfl) id
    exact { hsound with
      socket := fun _ hopen => absurd (hopen.symm.trans hclosed) (by decide)
      scheduled := fun hscheduled => ⟨(hsound.scheduled hscheduled).1, rfl⟩ }
  have hself : s'.client w = { s.client w with transportSocket := false } := set_client_self _
  refine ⟨hset, ?_, ?_, ?_⟩
  · refine hset.setDone.finalizeClose ?_ hwriting
    rw [set_client_self, hself]
    exact haccepted
  · refine hset.update ?_ fun _ => rfl
    rw [hself]
    exact { hself ▸ hset.sound w with
      waiting := fun hwaiting => absurd (hwaiting.symm.trans haccepted) (by decide)
      scheduled := fun _ => ⟨hnative, rfl⟩ }
  · refine hset.activate ?_ ?_ ?_ hwriting <;> rw [hself]
    · exact haccepted
    · exact hnative

/-- The event `close` of a socket. -/
theorem Held.socketClosed (h : s.Held) (hnext : s.next (.socketClosed w) = some s') : s'.Held := by
  simp only [Server.next] at hnext
  split at hnext
  case isTrue => cases hnext
  case isFalse hguard =>
  simp only [callable, Bool.or_eq_true, not_or, Bool.not_eq_true', Bool.not_eq_false,
    Bool.and_eq_true, Bool.not_eq_true] at hguard
  obtain ⟨⟨-, haccepted⟩, hopen⟩ := hguard
  have hset := h.setSocketClosed (w := w)
  have hself : (s.set w fun c => { c with socketClosed := true }).client w =
      { s.client w with socketClosed := true } := set_client_self _
  split at hnext
  case isTrue hfallback =>
    cases hnext
    refine hset.finalizeClose (by rw [hself]; exact haccepted) fun hwriting => ?_
    obtain ⟨-, hnative, -⟩ := h.entered _ hwriting
    simp [hnative] at hfallback
  case isFalse hnative =>
  rw [Bool.not_eq_true', Bool.not_eq_false] at hnative
  have hwriting : .writing w ∉ s.stack := by
    intro hwriting
    obtain ⟨-, -, hsocket, -⟩ := h.entered _ hwriting
    cases hsocket.symm.trans ((h.sound w).socket haccepted hopen)
  obtain ⟨-, hstale, hscheduled, hactivate⟩ := hset.transferred (by rw [hself]; exact haccepted)
    (by rw [hself]; exact hnative) (by rw [hself]) hwriting
  split at hnext
  case isTrue =>
    cases hnext
    exact hstale
  case isFalse =>
    split at hnext <;> cases hnext
    · exact hscheduled
    · exact hactivate

/-- A peer's Close frame. -/
theorem Held.setPeerClose (h : s.Held) (haccepted : (s.client w).accepted = true) :
    (s.set w fun c =>
      if c.readyState = .closed then c
      else { c.setReadyState .closing with closeTimer := true }).Held := by
  by_cases hstate : (s.client w).readyState = .closed
  · refine h.set ⟨?_, ?_, ?_, ?_, ?_, ?_, ?_, ?_, ?_⟩ <;> simp [hstate, h.sound w]
  · refine h.set ?_
    rw [if_neg hstate]
    have hkeeps := keeps_closing (h.sound w) hstate
    refine hkeeps.trans ⟨?_, rfl, rfl, rfl, rfl, rfl, id, id, id⟩
    exact { hkeeps.sound with
      waiting := fun hwaiting => absurd (hwaiting.symm.trans haccepted) (by decide) }

/-- A native transport that is active belongs to a client. -/
theorem Held.accepted_of_active (h : s.Held) (hactive : (s.client w).transportActive = true) :
    (s.client w).accepted = true := by
  by_contra hwaiting
  cases hactive.symm.trans ((h.sound w).waiting (by simpa using hwaiting)).2.2.1

/-- The callback of `Server.close` is kept. -/
theorem Held.listen (h : s.Held) {callback : Option K}
    (hfresh : ∀ k, callback = some k → k ∉ s.given) : (s.listen callback).Held := by
  cases callback with
  | none => exact h
  | some k =>
    have hgiven := List.nodup_cons.mpr ⟨hfresh k rfl, h.given⟩
    rw [Server.listen]
    split
    case isTrue hclosed =>
      exact { h with
        finishing := fun hticks => h.finishing (by simpa using hticks)
        calling := fun _ _ => hclosed
        given := hgiven
        callbacks := fun a => by
          have hcallbacks := h.callbacks a
          simp only [List.count_append, List.count_cons, List.count_nil, beq_iff_eq,
            Tick.call.injEq]
          omega }
    case isFalse =>
      exact { h with
        given := hgiven
        callbacks := fun a => by
          have hcallbacks := h.callbacks a
          simp only [List.count_append, List.count_cons, List.count_nil, beq_iff_eq]
          omega }

/-- `Server.close`. -/
theorem Held.serverClose (h : s.Held) {callback : Option K}
    (hfresh : ∀ k, callback = some k → k ∉ s.given) : (s.serverClose callback).Held := by
  have hlisten := h.listen hfresh
  rw [Server.serverClose]
  split
  case isTrue => exact hlisten
  case isFalse =>
    have hclosing : ({ s.listen callback with closing := true } : Server W K).Held :=
      { hlisten with
        entered := fun frame hframe => (hlisten.entered frame hframe).congr id (fun _ => rfl)
          (fun _ => id) (fun _ _ _ hn hs => ⟨hn, hs⟩) (fun _ _ _ => id) (fun _ _ => id)
        finished := fun hclosed => ⟨rfl, (hlisten.finished hclosed).2⟩
        finishing := fun hticks => ⟨rfl, (hlisten.finishing hticks).2⟩ }
    exact hclosing.push ⟨rfl, fun w hw => ((hlisten.members w).mp hw).1⟩ (Frame.plain rfl)

/-- The queue of the next tick. -/
theorem Held.tick (h : s.Held) (hnext : s.next .tick = some s') : s'.Held := by
  simp only [Server.next] at hnext
  split at hnext
  case isFalse => cases hnext
  case isTrue =>
  split at hnext
  case h_1 => cases hnext
  case h_2 ticks hticks =>
    cases hnext
    obtain ⟨hclosing, hclients⟩ := h.finishing (hticks ▸ List.mem_cons_self ..)
    refine Held.finishClose ?_ hclosing hclients
    exact { h with
      finishing := fun _ => ⟨hclosing, hclients⟩
      calling := fun k hk => h.calling k (hticks ▸ List.mem_cons_of_mem _ hk)
      callbacks := fun k => by
        have hcallbacks := h.callbacks k
        rwa [hticks, List.count_cons_of_ne (by simp)] at hcallbacks }
  case h_3 k ticks hticks =>
    cases hnext
    have hclosed := h.calling k (hticks ▸ List.mem_cons_self ..)
    refine Held.pushListening ?_
    exact { h with
      finishing := fun hk => h.finishing (hticks ▸ List.mem_cons_of_mem _ hk)
      calling := fun a hk => h.calling a (hticks ▸ List.mem_cons_of_mem _ hk)
      callbacks := fun a => by
        have hcallbacks := h.callbacks a
        rw [hticks] at hcallbacks
        simp only [List.count_cons, beq_iff_eq, Tick.call.injEq] at hcallbacks ⊢
        omega
      notEarly := by simp [h.notEarly, (h.finished hclosed).2] }

/-- One event keeps the invariant. -/
theorem Held.next (h : s.Held) {event : Event W K} (hnext : s.next event = some s') : s'.Held := by
  cases event with
  | upgrade w attachable encrypted response =>
    simp only [Server.next] at hnext
    split_ifs at hnext with hguard
    · cases hnext
      exact h
    · cases hnext
      simp only [Bool.or_eq_true, not_or, Bool.not_eq_true] at hguard
      exact h.upgrade hguard.2 attachable encrypted response
  | refuse =>
    simp only [Server.next] at hnext
    split_ifs at hnext
    cases hnext
    exact h.pushListening
  | ret =>
    simp only [Server.next] at hnext
    split at hnext
    case h_1 => cases hnext
    case h_2 frame stack hstack => exact h.resume hstack hnext
  | throw =>
    simp only [Server.next] at hnext
    split at hnext
    case h_1 => cases hnext
    case h_2 frame stack hstack => exact h.catchException hstack hnext
  | failed =>
    simp only [Server.next] at hnext
    split at hnext
    case h_1 => cases hnext
    case h_2 frame stack hstack => exact h.failed hstack hnext
  | wrote pending =>
    simp only [Server.next] at hnext
    split at hnext
    case h_2 => cases hnext
    case h_1 w stack hstack =>
      split_ifs at hnext
      cases hnext
      exact h.wrote hstack pending
  | pollFails pending =>
    simp only [Server.next] at hnext
    split at hnext
    case h_2 => cases hnext
    case h_1 w stack hstack =>
      split_ifs at hnext
      cases hnext
      have haccepted := (h.entered (.writing w) (hstack ▸ List.mem_cons_self ..)).1
      have hset : (s.set w fun c => { c with pendingBytes := pending, pollFailed := true }).Held :=
        h.update { h.sound w with } fun _ => rfl
      refine hset.failTransport ?_
      rw [set_client_self]
      exact haccepted
  | socketClosed w => exact h.socketClosed hnext
  | socketErrors w =>
    simp only [Server.next] at hnext
    split_ifs at hnext with hcall hnative hclosed
    · cases hnext
      exact h.update { h.sound w with } fun _ => rfl
    · cases hnext
      refine (h.update { h.sound w with } ?_).pushListening
      exact fun _ => rfl
  | socketEnds w =>
    simp only [Server.next] at hnext
    split_ifs at hnext
    cases hnext
    by_cases hopened : (s.client w).readyState = .opened
    · refine h.set ?_
      rw [if_pos hopened]
      exact keeps_closing (h.sound w) (by simp [hopened])
    · refine h.set ⟨?_, ?_, ?_, ?_, ?_, ?_, ?_, ?_, ?_⟩ <;> simp [hopened, h.sound w]
  | destroyLater w =>
    simp only [Server.next] at hnext
    split at hnext
    case isFalse => cases hnext
    case isTrue =>
      have hset : (s.set w fun c => { c with destroyScheduled := false }).Held := by
        refine h.update ?_ fun _ => rfl
        exact { h.sound w with
          waiting := fun hwaiting => by
            obtain ⟨h₁, h₂, h₃, h₄, -, h₆⟩ := (h.sound w).waiting hwaiting
            exact ⟨h₁, h₂, h₃, h₄, rfl, h₆⟩ }
      split at hnext <;> cases hnext
      · exact hset.update { hset.sound w with } fun _ => rfl
      · exact hset
  | activateLater w =>
    simp only [Server.next] at hnext
    split at hnext
    case isFalse => cases hnext
    case isTrue hguard =>
      simp only [Bool.and_eq_true, decide_eq_true_eq] at hguard
      cases hnext
      have hsound := h.sound w
      have haccepted : (s.client w).accepted = true := by
        by_contra hwaiting
        cases hguard.2.symm.trans (hsound.waiting (by simpa using hwaiting)).2.2.2.1
      obtain ⟨hnative, hsocket⟩ := hsound.scheduled hguard.2
      have hset : (s.set w fun c => { c with activationScheduled := false }).Held := by
        refine h.update ?_ fun _ => rfl
        exact { hsound with
          waiting := fun hwaiting => absurd (hwaiting.symm.trans haccepted) (by decide)
          scheduled := fun hfalse => absurd hfalse (by simp) }
      refine hset.activate ?_ ?_ ?_ ?_
      · rwa [set_client_self]
      · rwa [set_client_self]
      · rwa [set_client_self]
      · rw [set_stack, hguard.1]
        exact List.not_mem_nil
  | peerClose w =>
    simp only [Server.next] at hnext
    split_ifs at hnext with hnative hruns hcall
    · cases hnext
      simp only [nativeRuns, Bool.and_eq_true] at hruns
      exact h.setPeerClose (h.accepted_of_active hruns.1.1.1.1)
    · cases hnext
      exact h.setPeerClose (Bool.and_eq_true_iff.mp hcall).2
  | transportError w =>
    simp only [Server.next] at hnext
    split_ifs at hnext with hruns
    cases hnext
    simp only [nativeRuns, Bool.and_eq_true] at hruns
    exact h.failTransport (h.accepted_of_active hruns.1.1)
  | transportEnds w =>
    simp only [Server.next] at hnext
    split_ifs at hnext
    cases hnext
    exact h.closeNow
  | backpressure w =>
    simp only [Server.next] at hnext
    split_ifs at hnext
    cases hnext
    exact h.setBackpressure.closeNow
  | progress w pending =>
    simp only [Server.next] at hnext
    split_ifs at hnext
    cases hnext
    exact h.update { h.sound w with } fun _ => rfl
  | nativeClosed w =>
    simp only [Server.next] at hnext
    split_ifs at hnext with hguard
    cases hnext
    simp only [Bool.and_eq_true, decide_eq_true_eq] at hguard
    have hset : (s.set w fun c => { c with transportClosed := true }).Held :=
      h.update { h.sound w with } fun _ => rfl
    refine hset.finalizeClose ?_ ?_
    · rw [set_client_self]
      exact h.accepted_of_active hguard.1.1.2
    · rw [set_stack, hguard.1.1.1]
      exact List.not_mem_nil
  | close w valid =>
    simp only [Server.next] at hnext
    split_ifs at hnext with hcall
    cases hnext
    exact h.close (Bool.and_eq_true_iff.mp hcall).2 valid
  | terminate w =>
    simp only [Server.next] at hnext
    split_ifs at hnext with hcall
    cases hnext
    exact h.terminate (Bool.and_eq_true_iff.mp hcall).2
  | fail w =>
    simp only [Server.next] at hnext
    split_ifs at hnext with hcall
    cases hnext
    exact h.fail (Bool.and_eq_true_iff.mp hcall).2
  | closeTimeout w =>
    simp only [Server.next] at hnext
    split_ifs at hnext
    · cases hnext
      exact h.closeNow
    · cases hnext
      exact h.update { h.sound w with } fun _ => rfl
    · cases hnext
      exact h
  | serverClose callback =>
    simp only [Server.next] at hnext
    split_ifs at hnext with hguard
    cases hnext
    refine h.serverClose fun k hk hmem => hguard ?_
    simp [hk, hmem]
  | tick => exact h.tick hnext

/-- The states that any events reach from a new server. -/
abbrev Reaches (s : Server W K) : Prop :=
  Transition.Reachable (fun s : Server W K => ∃ maxBackpressure, s = { maxBackpressure })
    (fun s event s' => s.next event = some s') s

theorem Reaches.held (h : s.Reaches) : s.Held := by
  refine h.invariant (P := Held) ?_ fun s event s' hs hnext => hs.next hnext
  rintro s ⟨maxBackpressure, rfl⟩
  refine ⟨fun w => ?_, ?_, ?_, ?_, ?_, ?_, ?_, ?_, ?_, ?_, ?_, ?_, ?_, ?_⟩ <;> simp
  constructor <;> simp

end Server

/-- What is promised about the end of the clients and of the server. -/
structure Settled (s : Server W K) : Prop where
  registered : ∀ w, w ∈ s.clients ↔ (s.client w).accepted = true ∧ (s.client w).closed = false
  /-- A finalized client has emitted `close`, unless `_finalizeClose` is still in `_remove`. -/
  emitted : ∀ w, (s.client w).closeEvents + s.stack.count (.removing w) =
    (s.client w).closed.toNat
  disposed : ∀ w, (s.client w).accepted = true →
    (s.client w).disposals = (s.client w).closed.toNat
  closed : ∀ w, (s.client w).closed = true ↔ (s.client w).readyState = .closed
  staysClosed : ∀ w, (s.client w).reopened = false
  notLate : s.late = false
  /-- A session without a client has been disposed when its `handleUpgrade` has returned. -/
  unused : ∀ w, (s.client w).session = true → (s.client w).accepted = false →
    (s.client w).disposals + s.stack.count (.headers w) = 1
  closeEvents : s.closeEvents ≤ 1
  notEarly : s.early = false
  called : ∀ k, s.called.count k ≤ 1

/-- In every run, each client is finalized once, and the server closes once, without clients. -/
theorem server_settled (h : s.Reaches) : Settled s := by
  have hheld := h.held
  refine {
    registered := hheld.members
    emitted := hheld.emitted
    disposed := fun w haccepted => ?disposed
    closed := fun w => ?closed
    staysClosed := fun w => (hheld.sound w).reopened
    notLate := hheld.notLate
    unused := fun w hsession haccepted => ?unused
    closeEvents := ?closeEvents
    notEarly := hheld.notEarly
    called := fun k => ?called }
  case disposed =>
    have hsound := hheld.sound w
    rw [hsound.disposals, hsound.session (.inr haccepted)]
    cases hclosed : (s.client w).closed with
    | true => rw [(hsound.finished hclosed).2.2.2.1]; rfl
    | false => rw [(hsound.live haccepted hclosed).1]; rfl
  case closed =>
    constructor
    · exact fun hclosed => ((hheld.sound w).finished hclosed).2.2.2.2
    · intro hstate
      by_contra hclosed
      exact (hheld.sound w).notClosed (by simpa using hclosed) hstate
  case unused =>
    rw [(hheld.sound w).disposals, hheld.headers w, hsession, haccepted]
    cases (s.client w).external <;> rfl
  case closeEvents =>
    rw [hheld.closeEvents]
    exact Bool.toNat_le _
  case called =>
    have hcount := hheld.callbacks k
    have hgiven := List.nodup_iff_count_le_one.mp hheld.given k
    omega

/-- A client is closed by `Server.close`, and then the server. -/
theorem server_settled_close : ∃ s : Server Unit Unit,
    Transition.run Server.next { maxBackpressure := 0 } [.upgrade () false false 0, .ret, .ret,
      .serverClose (some ()), .ret, .ret, .ret, .ret, .socketClosed (), .ret, .ret, .ret, .ret] =
      some s ∧ Settled s ∧ (s.client ()).closed = true ∧ s.called = [()] := by
  have hends : ((Transition.run Server.next ({ maxBackpressure := 0 } : Server Unit Unit)
      [.upgrade () false false 0, .ret, .ret, .serverClose (some ()), .ret, .ret, .ret, .ret,
        .socketClosed (), .ret, .ret, .ret, .ret]).map fun s =>
          ((s.client ()).closed, s.called)) = some (true, [()]) := by decide
  obtain ⟨s, hs, hresult⟩ := Option.map_eq_some_iff.mp hends
  have hreaches : s.Reaches := Transition.Reachable.run (fun _ _ _ => id) (.start ⟨0, rfl⟩) hs
  exact ⟨s, hs, server_settled hreaches, (Prod.mk.inj hresult).1, (Prod.mk.inj hresult).2⟩

end Eiows.Lifecycle
