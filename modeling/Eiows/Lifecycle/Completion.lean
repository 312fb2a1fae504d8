import Eiows.Lifecycle.Runs

/-!
# The end of `Server.close`

A server that closes without clients has emitted `close`, or the next tick emits it, or
`Server.close` still goes through the clients that it found. An exception that leaves
`Server.close` there comes out of a client, whose end closes the server then. And a client that
is not finalized waits for its socket, its activation or its native transport, each of which
ends it.
-/

namespace Eiows.Lifecycle

variable {W K : Type}

/-- What a client waits for: the end of its socket, the second `setImmediate` of its upgrade, or
the end of its native transport. -/
structure Client.Awaits (c : Client) : Prop where
  socket : c.accepted = false → c.socketClosed = false
  transport : c.transportClosed = true → c.closed = true
  live : c.accepted = true → c.closed = false →
    c.socketClosed = false ∨ c.activationScheduled = true ∨ c.transportActive = true

/-- What decides that a client waits. -/
def Client.waits (c : Client) : Bool × Bool × Bool × Bool × Bool × Bool :=
  (c.accepted, c.socketClosed, c.activationScheduled, c.transportActive, c.transportClosed,
    c.closed)

/-- A client waits for the same, or is finalized. -/
structure Client.Continues (c c' : Client) : Prop where
  accepted : c'.accepted = c.accepted
  socketClosed : c'.socketClosed = c.socketClosed
  activationScheduled : c'.activationScheduled = c.activationScheduled
  transportActive : c'.transportActive = c.transportActive
  transportClosed : c'.transportClosed = c.transportClosed
  closed : c.closed = true → c'.closed = true

theorem Client.Continues.of_waits {c c' : Client} (h : c'.waits = c.waits) : c.Continues c' := by
  simp only [Client.waits, Prod.mk.injEq] at h
  obtain ⟨haccepted, hsocket, hscheduled, hactive, htransport, hclosed⟩ := h
  exact ⟨haccepted, hsocket, hscheduled, hactive, htransport, hclosed.trans⟩

theorem Client.Continues.refl (c : Client) : c.Continues c :=
  .of_waits rfl

theorem Client.Continues.trans {c₁ c₂ c₃ : Client} (h : c₁.Continues c₂) (h' : c₂.Continues c₃) :
    c₁.Continues c₃ where
  accepted := h'.accepted.trans h.accepted
  socketClosed := h'.socketClosed.trans h.socketClosed
  activationScheduled := h'.activationScheduled.trans h.activationScheduled
  transportActive := h'.transportActive.trans h.transportActive
  transportClosed := h'.transportClosed.trans h.transportClosed
  closed := h'.closed ∘ h.closed

theorem Client.Awaits.continues {c c' : Client} (h : c.Awaits) (h' : c.Continues c') :
    c'.Awaits where
  socket haccepted := by
    rw [h'.socketClosed]
    exact h.socket (h'.accepted.symm.trans haccepted)
  transport hclosed := h'.closed (h.transport (h'.transportClosed.symm.trans hclosed))
  live haccepted hopen := by
    rw [h'.socketClosed, h'.activationScheduled, h'.transportActive]
    refine h.live (h'.accepted.symm.trans haccepted) (Bool.eq_false_iff.mpr fun hclosed => ?_)
    exact absurd ((h'.closed hclosed).symm.trans hopen) (by decide)

namespace Server

/-- The close of a server is not given up. -/
structure Completes (s : Server W K) : Prop where
  finishes : s.closing = true → s.clients = [] →
    s.closed = true ∨ .finishClose ∈ s.ticks ∨ ∃ ws, .sweeping ws ∈ s.stack
  listeners : s.closed = true → s.listeners = []

/-- A function that takes the last client away finishes the close. -/
structure Finishes (s s' : Server W K) : Prop where
  sweeping : ∀ ws, .sweeping ws ∈ s.stack → .sweeping ws ∈ s'.stack
  ticks : .finishClose ∈ s.ticks → .finishClose ∈ s'.ticks
  closed : s.closed = true → s'.closed = true
  listeners : s'.closed = true → (s.closed = true → s.listeners = []) → s'.listeners = []
  emptied : s'.closing = true → s'.clients = [] →
    s'.closed = true ∨ (s.closing = true ∧ s.clients = [])

theorem Finishes.trans {s₁ s₂ s₃ : Server W K} (h : s₁.Finishes s₂) (h' : s₂.Finishes s₃) :
    s₁.Finishes s₃ where
  sweeping ws hws := h'.sweeping ws (h.sweeping ws hws)
  ticks := h'.ticks ∘ h.ticks
  closed := h'.closed ∘ h.closed
  listeners hclosed hnone := h'.listeners hclosed fun hclosed' => h.listeners hclosed' hnone
  emptied hclosing hnone := by
    rcases h'.emptied hclosing hnone with hclosed | ⟨hclosing', hnone'⟩
    · exact .inl hclosed
    · exact (h.emptied hclosing' hnone').imp_left h'.closed

/-- Nothing that the close of the server depends on is written, but calls. -/
theorem Finishes.of_stack {s s' : Server W K}
    (hstack : ∀ ws, .sweeping ws ∈ s.stack → .sweeping ws ∈ s'.stack) (hticks : s'.ticks = s.ticks)
    (hclosing : s'.closing = s.closing) (hclosed : s'.closed = s.closed)
    (hclients : s'.clients = s.clients) (hlisteners : s'.listeners = s.listeners) :
    s.Finishes s' where
  sweeping := hstack
  ticks htick := by rwa [hticks]
  closed h := by rwa [hclosed]
  listeners h hnone := hlisteners.trans (hnone (hclosed.symm.trans h))
  emptied h hnone := .inr ⟨hclosing.symm.trans h, hclients.symm.trans hnone⟩

/-- A function finishes the close, and no client waits for anything else than before. -/
structure Advances (s s' : Server W K) : Prop extends s.Finishes s' where
  client : ∀ a, (s.client a).Continues (s'.client a)

theorem Advances.of_stack {s s' : Server W K}
    (hstack : ∀ ws, .sweeping ws ∈ s.stack → .sweeping ws ∈ s'.stack) (hticks : s'.ticks = s.ticks)
    (hclosing : s'.closing = s.closing) (hclosed : s'.closed = s.closed)
    (hclients : s'.clients = s.clients) (hlisteners : s'.listeners = s.listeners)
    (hclient : s'.client = s.client) : s.Advances s' :=
  ⟨.of_stack hstack hticks hclosing hclosed hclients hlisteners, fun _ => hclient ▸ .refl _⟩

theorem Advances.refl (s : Server W K) : s.Advances s :=
  .of_stack (fun _ => id) rfl rfl rfl rfl rfl rfl

theorem Advances.trans {s₁ s₂ s₃ : Server W K} (h : s₁.Advances s₂) (h' : s₂.Advances s₃) :
    s₁.Advances s₃ :=
  ⟨h.toFinishes.trans h'.toFinishes, fun a => (h.client a).trans (h'.client a)⟩

theorem Completes.finish {s s' : Server W K} (h : s.Completes) (h' : s.Finishes s') :
    s'.Completes where
  finishes hclosing hnone := by
    rcases h'.emptied hclosing hnone with hclosed | ⟨hclosing', hnone'⟩
    · exact .inl hclosed
    · rcases h.finishes hclosing' hnone' with hclosed | htick | ⟨ws, hws⟩
      · exact .inl (h'.closed hclosed)
      · exact .inr (.inl (h'.ticks htick))
      · exact .inr (.inr ⟨ws, h'.sweeping ws hws⟩)
  listeners hclosed := h'.listeners hclosed h.listeners

section Functions

variable [DecidableEq W] {s : Server W K} {w : W}

theorem finishes_set (f : Client → Client) : s.Finishes (s.set w f) :=
  .of_stack (fun _ => id) rfl rfl rfl rfl rfl

theorem advances_set_of (f : Client → Client) (hf : ∀ c : Client, c.Continues (f c)) :
    s.Advances (s.set w f) := by
  refine ⟨finishes_set f, fun a => ?_⟩
  by_cases ha : a = w
  · subst ha
    rw [set_client_self]
    exact hf _
  · rw [set_client_of_ne ha]
    exact .refl _

theorem advances_set (f : Client → Client) (hf : ∀ c : Client, (f c).waits = c.waits) :
    s.Advances (s.set w f) :=
  advances_set_of f fun c => .of_waits (hf c)

omit [DecidableEq W] in
theorem advances_push (frame : Frame W K) : s.Advances (s.push frame) :=
  .of_stack (fun _ => List.mem_cons_of_mem frame) rfl rfl rfl rfl rfl rfl

/-- A function writes to its client and calls another. -/
theorem advances_call (f : Client → Client) (frame : Frame W K)
    (hf : ∀ c : Client, (f c).waits = c.waits) : s.Advances ((s.set w f).push frame) :=
  (advances_set f hf).trans (advances_push frame)

omit [DecidableEq W] in
/-- A function other than `Server.close` returns. -/
theorem advances_pop {frame : Frame W K} {stack : List (Frame W K)}
    (hstack : s.stack = frame :: stack) (hframe : ∀ ws, frame ≠ .sweeping ws) :
    s.Advances { s with stack } := by
  refine .of_stack (fun ws hws => ?_) rfl rfl rfl rfl rfl rfl
  rw [hstack] at hws
  exact (List.mem_cons.mp hws).resolve_left (hframe ws).symm

omit [DecidableEq W] in
theorem advances_finishClose : s.Advances s.finishClose := by
  rw [Server.finishClose]
  split
  case isTrue => exact Advances.refl s
  case isFalse =>
    exact ⟨⟨fun _ hws => List.mem_cons_of_mem _ hws, id, fun _ => rfl, fun _ _ => rfl,
      fun _ _ => .inl rfl⟩, fun _ => .refl _⟩

/-- `_remove`. A closing server without clients is closed behind it. -/
theorem advances_remove : s.Advances (s.remove w) := by
  rw [Server.remove]
  dsimp only
  split
  case isTrue =>
    have hfilter := advances_finishClose (s := { s with clients := s.clients.filter (· ≠ w) })
    refine ⟨⟨hfilter.sweeping, hfilter.ticks, hfilter.closed, hfilter.listeners,
      fun _ _ => .inl ?_⟩, hfilter.client⟩
    rw [Server.finishClose]
    split
    case isTrue hclosed => exact hclosed
    case isFalse => rfl
  case isFalse hgoes =>
    refine ⟨⟨fun _ => id, id, id, fun hclosed hnone => hnone hclosed, fun hclosing hnone => ?_⟩,
      fun _ => .refl _⟩
    exact absurd (Bool.and_eq_true_iff.mpr ⟨hclosing, List.isEmpty_iff.mpr hnone⟩) hgoes

theorem advances_finalizeClose : s.Advances (s.finalizeClose w) := by
  rw [Server.finalizeClose]
  dsimp only
  split
  case isTrue => exact Advances.refl s
  case isFalse =>
    have hcall : s.Advances ((s.set w fun c => { c.setReadyState .closed with
        closed := true
        upgradePending := false
        closeTimer := false
        disposals := c.disposals + c.external.toNat
        external := false
        transportClosing := c.transportClosing || c.nativeTransport
        nativeActive := false
        server := false }).push (.removing w)) :=
      (advances_set_of _ fun _ => by exact ⟨rfl, rfl, rfl, rfl, rfl, fun _ => rfl⟩).trans
        (advances_push _)
    split
    · exact hcall.trans advances_remove
    · exact hcall

theorem advances_closeNow : s.Advances (s.closeNow w) := by
  rw [Server.closeNow]
  dsimp only
  split_ifs
  · exact Advances.refl s
  · exact advances_call _ _ fun _ => by rfl
  · exact advances_set _ fun _ => by rfl

theorem advances_abortPendingUpgrade (sendResponse : Bool) :
    s.Advances (s.abortPendingUpgrade sendResponse w) := by
  rw [Server.abortPendingUpgrade]
  split
  case isTrue => exact Advances.refl s
  case isFalse =>
    have hclosing : s.Advances (s.set w fun c => c.setReadyState .closing) :=
      advances_set _ fun _ => by rfl
    have hreleased : ∀ s₁ : Server W K, s.Advances s₁ → s.Advances
        (if (s₁.client w).transportSocket then
          s₁.set w fun c => { c with socketDestroyed := c.socketDestroyed || !sendResponse }
        else if ((s₁.set w fun c => { c with upgradePending := false }).client w).nativeActive then
          s₁.set w fun c => { c with upgradePending := false }
        else (s₁.set w fun c => { c with upgradePending := false }).finalizeClose w) := by
      intro s₁ h₁
      split_ifs
      · exact h₁.trans (advances_set _ fun _ => by rfl)
      · exact h₁.trans (advances_set _ fun _ => by rfl)
      · exact (h₁.trans (advances_set _ fun _ => by rfl)).trans advances_finalizeClose
    dsimp only
    split
    · exact hreleased _ (hclosing.trans advances_closeNow)
    · exact hreleased _ hclosing

theorem advances_release : s.Advances (s.release w) := by
  rw [Server.release]
  split_ifs
  · exact (advances_push _).trans advances_closeNow
  · exact advances_set _ fun _ => by rfl
  · exact advances_finalizeClose

theorem advances_continueFail : s.Advances (s.continueFail w) := by
  rw [Server.continueFail]
  split
  · exact advances_abortPendingUpgrade false
  · exact advances_release

theorem advances_fail : s.Advances (s.fail w) := by
  rw [Server.fail]
  dsimp only
  split_ifs
  · exact Advances.refl s
  · exact (advances_set _ fun _ => by rfl).trans advances_continueFail
  · exact (advances_set _ fun _ => by rfl).trans (advances_call _ _ fun _ => by rfl)

theorem advances_terminate : s.Advances (s.terminate w) := by
  rw [Server.terminate]
  split_ifs
  · exact Advances.refl s
  · exact advances_abortPendingUpgrade false
  · exact (advances_set _ fun _ => by rfl).trans advances_release

theorem advances_close (valid : Bool) : s.Advances (s.close w valid) := by
  rw [Server.close]
  dsimp only
  split_ifs
  · exact Advances.refl s
  · exact advances_abortPendingUpgrade true
  · exact Advances.refl s
  · exact advances_call _ _ fun _ => by rfl
  · exact advances_call _ _ fun _ => by rfl

theorem finishes_activate : s.Finishes (s.activate w) := by
  rw [Server.activate]
  split
  · exact ((advances_set _ fun _ => by rfl).trans advances_finalizeClose).toFinishes
  · exact (finishes_set _).trans (advances_push _).toFinishes

/-- A client that is added keeps the server from being empty. -/
theorem finishes_accept : s.Finishes (s.accept w) := by
  rw [Server.accept]
  split
  case isTrue => exact finishes_set _
  case isFalse =>
    have hadded : ∀ (f : Client → Client) (late : Bool),
        s.Finishes { s.set w f with clients := s.clients ++ [w], late } := by
      intro f late
      exact ⟨fun _ => id, id, id, fun hclosed hnone => hnone hclosed, fun _ hnone =>
        absurd hnone (List.append_ne_nil_of_right_ne_nil _ (List.cons_ne_nil w []))⟩
    dsimp only
    split
    · exact hadded _ _
    · exact (hadded _ _).trans (advances_push _).toFinishes

theorem advances_failTransport : s.Advances (s.failTransport w) := by
  rw [Server.failTransport]
  dsimp only
  split_ifs
  · exact advances_closeNow
  · exact (advances_set _ fun _ => by rfl).trans advances_closeNow
  · exact (advances_set _ fun _ => by rfl).trans (advances_call _ _ fun _ => by rfl)

theorem advances_wrote (pending : ℕ) : s.Advances (s.wrote w pending) := by
  rw [Server.wrote]
  split
  · exact ((((advances_set _ fun _ => by rfl).trans (advances_set _ fun c => by
      split <;> rfl)).trans advances_closeNow).trans
      (advances_set _ fun _ => by rfl)).trans (advances_push _)
  · exact (advances_set _ fun _ => by rfl).trans (advances_call _ _ fun _ => by rfl)

/-! ### The end of a client -/

/-- Every client that is not finalized waits for an end. -/
def Awaiting (s : Server W K) : Prop := ∀ a, (s.client a).Awaits

omit [DecidableEq W] in
theorem Awaiting.advances {s' : Server W K} (h : s.Awaiting) (h' : s.Advances s') :
    s'.Awaiting :=
  fun a => (h a).continues (h'.client a)

theorem awaits_set_of_ne (h : ∀ a, a ≠ w → (s.client a).Awaits) (f : Client → Client) :
    ∀ a, a ≠ w → ((s.set w f).client a).Awaits := by
  intro a ha
  rw [set_client_of_ne ha]
  exact h a ha

theorem Awaiting.set (h : s.Awaiting) {f : Client → Client} (hf : (f (s.client w)).Awaits) :
    (s.set w f).Awaiting := by
  intro a
  by_cases ha : a = w
  · subst ha
    rw [set_client_self]
    exact hf
  · exact awaits_set_of_ne (fun a _ => h a) f a ha

theorem closed_finalizeClose : ((s.finalizeClose w).client w).closed = true := by
  rw [Server.finalizeClose]
  dsimp only
  split
  case isTrue hclosed => exact hclosed
  case isFalse =>
    split
    · exact (advances_remove.client w).closed (by simp [Server.push])
    · simp [Server.push]

/-- `_finalizeClose` is the end of a client, whatever it waited for. -/
theorem awaiting_finalizeClose (h : ∀ a, a ≠ w → (s.client a).Awaits)
    (haccepted : (s.client w).accepted = true) : (s.finalizeClose w).Awaiting := by
  intro a
  have hcontinues := (advances_finalizeClose (s := s) (w := w)).client a
  by_cases ha : a = w
  · subst ha
    have hkept := hcontinues.accepted.trans haccepted
    refine ⟨fun hfree => ?_, fun _ => closed_finalizeClose, fun _ hopen => ?_⟩
    · exact absurd (hkept.symm.trans hfree) (by decide)
    · exact absurd (closed_finalizeClose.symm.trans hopen) (by decide)
  · exact (h a ha).continues hcontinues

/-- `activate` finalizes the client, or activates its native transport. -/
theorem awaiting_activate (h : ∀ a, a ≠ w → (s.client a).Awaits)
    (haccepted : (s.client w).accepted = true)
    (htransport : (s.client w).transportClosed = true → (s.client w).closed = true) :
    (s.activate w).Awaiting := by
  rw [Server.activate]
  split
  · exact awaiting_finalizeClose (awaits_set_of_ne h _) (by rw [set_client_self]; exact haccepted)
  · refine Awaiting.advances (fun a => ?_) (advances_push _)
    by_cases ha : a = w
    · subst ha
      rw [set_client_self]
      exact ⟨fun hfree => absurd (haccepted.symm.trans hfree) (by decide), htransport,
        fun _ _ => .inr (.inr rfl)⟩
    · exact awaits_set_of_ne h _ a ha

theorem Awaiting.accept (h : s.Awaiting) : (s.accept w).Awaiting := by
  rw [Server.accept]
  split
  case isTrue => exact h.advances (advances_set _ fun _ => by rfl)
  case isFalse =>
    have hlive : (s.client w).closed = false → (s.client w).socketClosed = false ∨
        (s.client w).activationScheduled = true ∨ (s.client w).transportActive = true := by
      intro hopen
      cases haccepted : (s.client w).accepted with
      | false => exact .inl ((h w).socket haccepted)
      | true => exact (h w).live haccepted hopen
    have hset : (s.set w fun c => { c with
        accepted := true
        nativeTransport := (s.client w).attachable
        server := true
        transportSocket := true
        upgradePending := true
        readyState := .connecting
        destroyScheduled := (s.client w).attachable }).Awaiting :=
      h.set ⟨fun hfree => (by cases hfree), (h w).transport, fun _ => hlive⟩
    dsimp only
    split
    · exact hset
    · exact hset

end Functions

variable [DecidableEq W] {s s' : Server W K} {frame : Frame W K} {stack : List (Frame W K)}

/-- `Server.close` goes on with the next of its clients, or is through with them. -/
theorem Completes.sweep (h : s.Completes) {ws : List W} (hstack : s.stack = .sweeping ws :: stack)
    (hresume : ({ s with stack } : Server W K).resume (.sweeping ws) = some s') : s'.Completes := by
  cases ws with
  | nil =>
    simp only [Server.resume] at hresume
    split at hresume
    case isTrue =>
      cases hresume
      exact ⟨fun _ _ => .inr (.inl (by simp)), h.listeners⟩
    case isFalse hclients =>
      cases hresume
      exact ⟨fun _ hnone => absurd (List.isEmpty_iff.mpr hnone) hclients, h.listeners⟩
  | cons w rest =>
    cases hresume
    have hpush : (({ s with stack } : Server W K).push (.sweeping rest)).Completes :=
      ⟨fun _ _ => .inr (.inr ⟨rest, List.mem_cons_self⟩), h.listeners⟩
    exact hpush.finish (advances_close true).toFinishes

/-- A function other than `Server.close` goes on. -/
theorem advances_resume (hstack : s.stack = frame :: stack) (hframe : ∀ ws, frame ≠ .sweeping ws)
    (hheaders : ∀ w, frame ≠ .headers w)
    (hresume : ({ s with stack } : Server W K).resume frame = some s') : s.Advances s' := by
  apply (advances_pop hstack hframe).trans
  cases frame with
  | headers w => exact absurd rfl (hheaders w)
  | response w =>
    simp only [Server.resume] at hresume
    split_ifs at hresume
    · cases hresume
      exact Advances.refl _
    · cases hresume
      exact advances_call _ _ fun _ => by rfl
  | accepted w | activated w | replying w | listening =>
    cases hresume
    exact Advances.refl _
  | activation w =>
    simp only [Server.resume] at hresume
    split_ifs at hresume
    · cases hresume
      exact (advances_set _ fun _ => by rfl).trans advances_fail
    · cases hresume
      exact advances_call _ _ fun _ => by rfl
  | writing w =>
    simp only [Server.resume] at hresume
    split_ifs at hresume
    cases hresume
    exact advances_call _ _ fun _ => by rfl
  | reporting w =>
    cases hresume
    exact advances_closeNow
  | failing w =>
    cases hresume
    exact advances_continueFail
  | releasing w =>
    simp only [Server.resume] at hresume
    split_ifs at hresume
    · cases hresume
      exact Advances.refl _
    · cases hresume
      exact advances_finalizeClose
  | removing w =>
    cases hresume
    exact advances_call _ _ fun _ => by rfl
  | notifying callbacks =>
    cases callbacks with
    | nil =>
      cases hresume
      exact Advances.refl _
    | cons k rest =>
      cases hresume
      have hcalled : ∀ (called : List K) (early : Bool),
          ({ s with stack } : Server W K).Advances { s with stack, called, early } :=
        fun _ _ => .of_stack (fun _ => id) rfl rfl rfl rfl rfl rfl
      exact ((hcalled _ _).trans (advances_push _)).trans (advances_push _)
  | sweeping ws => exact absurd rfl (hframe ws)

theorem advances_catchException (hstack : s.stack = frame :: stack)
    (hframe : ∀ ws, frame ≠ .sweeping ws)
    (hcatch : ({ s with stack } : Server W K).catchException frame = some s') : s.Advances s' := by
  apply (advances_pop hstack hframe).trans
  cases frame with
  | headers w =>
    cases hcatch
    exact advances_call _ _ fun _ => by rfl
  | response w | accepted w =>
    cases hcatch
    exact advances_terminate
  | activated w | replying w =>
    cases hcatch
    exact advances_fail
  | reporting w =>
    cases hcatch
    exact advances_closeNow
  | failing w | listening =>
    cases hcatch
    exact Advances.refl _
  | sweeping ws => exact absurd rfl (hframe ws)
  | activation w | writing w | releasing w | removing w | notifying ks => cases hcatch

theorem advances_failed (hstack : s.stack = frame :: stack)
    (hfailed : ({ s with stack } : Server W K).failed frame = some s') : s.Advances s' := by
  have hpop := fun hframe => advances_pop hstack hframe
  cases frame with
  | activation w =>
    cases hfailed
    exact (hpop (by simp)).trans advances_fail
  | writing w =>
    simp only [Server.failed] at hfailed
    split_ifs at hfailed
    cases hfailed
    exact (hpop (by simp)).trans advances_fail
  | replying w =>
    cases hfailed
    exact (hpop (by simp)).trans advances_closeNow
  | headers _ | response _ | accepted _ | activated _ | reporting _ | failing _ | releasing _
  | removing _ | notifying _ | sweeping _ | listening => cases hfailed

omit [DecidableEq W] in
theorem advances_listen (callback : Option K) : s.Advances (s.listen callback) := by
  cases callback with
  | none => exact Advances.refl s
  | some k =>
    rw [Server.listen]
    split
    case isTrue =>
      exact ⟨⟨fun _ => id, List.mem_append_left _, id, fun hclosed hnone => hnone hclosed,
        fun hclosing hnone => .inr ⟨hclosing, hnone⟩⟩, fun _ => .refl _⟩
    case isFalse hopen =>
      exact ⟨⟨fun _ => id, id, id, fun hclosed => absurd hclosed hopen, fun hclosing hnone =>
        .inr ⟨hclosing, hnone⟩⟩, fun _ => .refl _⟩

omit [DecidableEq W] in
theorem Completes.serverClose (h : s.Completes) (callback : Option K) :
    (s.serverClose callback).Completes := by
  have hlisten := h.finish (advances_listen callback).toFinishes
  rw [Server.serverClose]
  split
  case isTrue => exact hlisten
  case isFalse => exact ⟨fun _ _ => .inr (.inr ⟨_, List.mem_cons_self⟩), hlisten.listeners⟩

variable [DecidableEq K]

theorem Completes.tick (h : s.Completes) (hnext : s.next .tick = some s') : s'.Completes := by
  simp only [Server.next] at hnext
  split at hnext
  case isFalse => cases hnext
  case isTrue =>
  split at hnext
  case h_1 => cases hnext
  case h_2 ticks hticks =>
    cases hnext
    rw [Server.finishClose]
    split
    case isTrue hclosed => exact ⟨fun _ _ => .inl hclosed, h.listeners⟩
    case isFalse => exact ⟨fun _ _ => .inl rfl, fun _ => rfl⟩
  case h_3 k ticks hticks =>
    cases hnext
    refine ⟨fun hclosing hnone => ?_, h.listeners⟩
    rcases h.finishes hclosing hnone with hclosed | htick | ⟨ws, hws⟩
    · exact .inl hclosed
    · rw [hticks] at htick
      exact .inr (.inl ((List.mem_cons.mp htick).resolve_left (by simp)))
    · exact .inr (.inr ⟨ws, List.mem_cons_of_mem _ hws⟩)

/-- An exception leaves `Server.close` out of a client that it closes: with no client, it calls
nothing, and the last client that goes closes the server. -/
def Sourced (s : Server W K) : Event W K → Prop
  | .throw => ∀ ws, s.stack.head? = some (.sweeping ws) → s.clients ≠ [] ∨ s.closed = true
  | _ => True

/-- An event that changes nothing that a client waits for, and neither calls nor resumes
`Server.close`. -/
def Plain (s : Server W K) : Event W K → Prop
  | .ret => ∀ frame, s.stack.head? = some frame →
      (∀ ws, frame ≠ .sweeping ws) ∧ ∀ w, frame ≠ .headers w
  | .throw => ∀ ws, s.stack.head? ≠ some (.sweeping ws)
  | .socketClosed _ | .activateLater _ | .nativeClosed _ | .serverClose _ | .tick => False
  | _ => True

theorem advances_next {event : Event W K} (hnext : s.next event = some s')
    (hplain : s.Plain event) : s.Advances s' := by
  cases event with
  | upgrade w attachable encrypted response =>
    simp only [Server.next] at hnext
    split_ifs at hnext
    · cases hnext
      exact Advances.refl s
    · cases hnext
      exact advances_call _ _ fun _ => by rfl
  | refuse =>
    simp only [Server.next] at hnext
    split_ifs at hnext
    cases hnext
    exact advances_push _
  | ret =>
    simp only [Server.next] at hnext
    split at hnext
    case h_1 => cases hnext
    case h_2 frame stack hstack =>
      obtain ⟨hframe, hheaders⟩ := hplain frame (by rw [hstack, List.head?_cons])
      exact advances_resume hstack hframe hheaders hnext
  | throw =>
    simp only [Server.next] at hnext
    split at hnext
    case h_1 => cases hnext
    case h_2 frame stack hstack =>
      refine advances_catchException hstack (fun ws hframe => hplain ws ?_) hnext
      rw [hstack, hframe, List.head?_cons]
  | failed =>
    simp only [Server.next] at hnext
    split at hnext
    case h_1 => cases hnext
    case h_2 frame stack hstack => exact (advances_failed hstack hnext)
  | wrote pending =>
    simp only [Server.next] at hnext
    split at hnext
    case h_2 => cases hnext
    case h_1 w stack hstack =>
      split_ifs at hnext
      cases hnext
      exact (advances_pop hstack (by simp)).trans (advances_wrote pending)
  | pollFails pending =>
    simp only [Server.next] at hnext
    split at hnext
    case h_2 => cases hnext
    case h_1 w stack hstack =>
      split_ifs at hnext
      cases hnext
      exact (advances_set _ fun _ => by rfl).trans advances_failTransport
  | socketErrors w =>
    simp only [Server.next] at hnext
    split_ifs at hnext
    all_goals cases hnext
    · exact advances_set _ fun _ => by rfl
    · exact advances_call _ _ fun _ => by rfl
  | socketEnds w =>
    simp only [Server.next] at hnext
    split_ifs at hnext
    cases hnext
    exact advances_set _ fun c => by split <;> rfl
  | destroyLater w =>
    simp only [Server.next] at hnext
    split_ifs at hnext
    all_goals cases hnext
    · exact (advances_set _ fun _ => by rfl).trans (advances_set _ fun _ => by rfl)
    · exact advances_set _ fun _ => by rfl
  | peerClose w =>
    simp only [Server.next] at hnext
    split_ifs at hnext
    all_goals
      cases hnext
      exact advances_set _ fun c => by split <;> rfl
  | transportError w =>
    simp only [Server.next] at hnext
    split_ifs at hnext
    cases hnext
    exact advances_failTransport
  | transportEnds w =>
    simp only [Server.next] at hnext
    split_ifs at hnext
    cases hnext
    exact advances_closeNow
  | backpressure w =>
    simp only [Server.next] at hnext
    split_ifs at hnext
    cases hnext
    exact (advances_set _ fun c => by split <;> rfl).trans
      advances_closeNow
  | progress w pending =>
    simp only [Server.next] at hnext
    split_ifs at hnext
    cases hnext
    exact advances_set _ fun _ => by rfl
  | close w valid =>
    simp only [Server.next] at hnext
    split_ifs at hnext
    cases hnext
    exact advances_close valid
  | terminate w =>
    simp only [Server.next] at hnext
    split_ifs at hnext
    cases hnext
    exact advances_terminate
  | fail w =>
    simp only [Server.next] at hnext
    split_ifs at hnext
    cases hnext
    exact advances_fail
  | closeTimeout w =>
    simp only [Server.next] at hnext
    split_ifs at hnext
    all_goals cases hnext
    · exact advances_closeNow
    · exact advances_set _ fun _ => by rfl
    · exact Advances.refl s
  | socketClosed w | activateLater w | nativeClosed w | serverClose callback | tick =>
    exact hplain.elim

/-- One event keeps the close of a server going. -/
theorem Completes.next (h : s.Completes) {event : Event W K} (hnext : s.next event = some s')
    (hevent : s.Sourced event) : s'.Completes := by
  cases event with
  | ret =>
    simp only [Server.next] at hnext
    split at hnext
    case h_1 => cases hnext
    case h_2 frame stack hstack =>
      by_cases hsweeping : ∃ ws, frame = .sweeping ws
      · obtain ⟨ws, rfl⟩ := hsweeping
        exact h.sweep hstack hnext
      · have hframe := not_exists.mp hsweeping
        by_cases hheaders : ∃ w, frame = .headers w
        · obtain ⟨w, rfl⟩ := hheaders
          cases hnext
          exact h.finish ((advances_pop hstack hframe).toFinishes.trans finishes_accept)
        · exact h.finish
            (advances_resume hstack hframe (not_exists.mp hheaders) hnext).toFinishes
  | throw =>
    simp only [Server.next] at hnext
    split at hnext
    case h_1 => cases hnext
    case h_2 frame stack hstack =>
      by_cases hframe : ∃ ws, frame = .sweeping ws
      · obtain ⟨ws, rfl⟩ := hframe
        have hsource : s.clients ≠ [] ∨ s.closed = true :=
          hevent ws (by rw [hstack, List.head?_cons])
        cases hnext
        exact ⟨fun _ hnone => .inl (hsource.resolve_left (not_not_intro hnone)), h.listeners⟩
      · exact h.finish (advances_catchException hstack (not_exists.mp hframe) hnext).toFinishes
  | socketClosed w =>
    simp only [Server.next] at hnext
    split_ifs at hnext
    all_goals cases hnext
    · exact h.finish ((finishes_set _).trans advances_finalizeClose.toFinishes)
    · exact h.finish ((((finishes_set _).trans (finishes_set _)).trans (finishes_set _)).trans
        advances_finalizeClose.toFinishes)
    · exact h.finish (((finishes_set _).trans (finishes_set _)).trans (finishes_set _))
    · exact h.finish (((finishes_set _).trans (finishes_set _)).trans finishes_activate)
  | activateLater w =>
    simp only [Server.next] at hnext
    split_ifs at hnext
    cases hnext
    exact h.finish ((finishes_set _).trans finishes_activate)
  | nativeClosed w =>
    simp only [Server.next] at hnext
    split_ifs at hnext
    cases hnext
    exact h.finish ((finishes_set _).trans advances_finalizeClose.toFinishes)
  | serverClose callback =>
    simp only [Server.next] at hnext
    split_ifs at hnext
    cases hnext
    exact h.serverClose callback
  | tick => exact h.tick hnext
  | upgrade _ _ _ _ | refuse | failed | wrote _ | pollFails _ | socketErrors _ | socketEnds _
  | destroyLater _ | peerClose _ | transportError _ | transportEnds _ | backpressure _
  | progress _ _ | close _ _ | terminate _ | fail _ | closeTimeout _ =>
    exact h.finish (advances_next hnext trivial).toFinishes

omit [DecidableEq K] in
theorem Awaiting.sweep (h : s.Awaiting) {ws : List W}
    (hresume : ({ s with stack } : Server W K).resume (.sweeping ws) = some s') : s'.Awaiting := by
  cases ws with
  | nil =>
    simp only [Server.resume] at hresume
    split at hresume
    all_goals
      cases hresume
      exact h
  | cons w rest =>
    cases hresume
    have hpop : ({ s with stack } : Server W K).Awaiting := h
    exact hpop.advances ((advances_push _).trans (advances_close true))

/-- The socket of a client emits `close`. -/
theorem Awaiting.socketClosed (h : s.Awaiting) {w : W}
    (hnext : s.next (.socketClosed w) = some s') : s'.Awaiting := by
  simp only [Server.next] at hnext
  split at hnext
  case isTrue => cases hnext
  case isFalse hguard =>
  have haccepted : (s.client w).accepted = true := by
    simp only [Server.callable, Bool.or_eq_true, Bool.not_eq_true', not_or, Bool.not_eq_false,
      Bool.and_eq_true] at hguard
    exact hguard.1.2
  have hothers := awaits_set_of_ne (s := s) (w := w) fun a _ => h a
  split_ifs at hnext
  all_goals cases hnext
  · exact awaiting_finalizeClose (hothers _) (by rwa [set_client_self])
  · exact awaiting_finalizeClose
      (awaits_set_of_ne (awaits_set_of_ne (hothers _) _) _) (by simpa using haccepted)
  · refine fun a => ?_
    by_cases ha : a = w
    · subst ha
      simp only [set_client_self]
      exact ⟨fun hfree => absurd (haccepted.symm.trans hfree) (by decide), (h a).transport,
        fun _ _ => .inr (.inl rfl)⟩
    · exact awaits_set_of_ne (awaits_set_of_ne (hothers _) _) _ a ha
  · exact awaiting_activate (awaits_set_of_ne (hothers _) _) (by simpa using haccepted)
      (by simpa using (h w).transport)

/-- One event leaves every client finalized or waiting for an end. -/
theorem Awaiting.next (h : s.Awaiting) (hheld : s.Held) {event : Event W K}
    (hnext : s.next event = some s') : s'.Awaiting := by
  cases event with
  | ret =>
    simp only [Server.next] at hnext
    split at hnext
    case h_1 => cases hnext
    case h_2 frame stack hstack =>
      by_cases hsweeping : ∃ ws, frame = .sweeping ws
      · obtain ⟨ws, rfl⟩ := hsweeping
        exact h.sweep hnext
      · have hframe := not_exists.mp hsweeping
        by_cases hheaders : ∃ w, frame = .headers w
        · obtain ⟨w, rfl⟩ := hheaders
          cases hnext
          exact (h.advances (advances_pop hstack hframe)).accept
        · exact h.advances (advances_resume hstack hframe (not_exists.mp hheaders) hnext)
  | throw =>
    simp only [Server.next] at hnext
    split at hnext
    case h_1 => cases hnext
    case h_2 frame stack hstack =>
      by_cases hframe : ∃ ws, frame = .sweeping ws
      · obtain ⟨ws, rfl⟩ := hframe
        cases hnext
        exact h
      · exact h.advances (advances_catchException hstack (not_exists.mp hframe) hnext)
  | socketClosed w => exact h.socketClosed hnext
  | activateLater w =>
    simp only [Server.next] at hnext
    split_ifs at hnext with hguard
    cases hnext
    have haccepted : (s.client w).accepted = true := by
      refine Bool.of_not_eq_false fun hfree => ?_
      have hscheduled := ((hheld.sound w).waiting hfree).2.2.2.1
      exact absurd ((Bool.and_eq_true_iff.mp hguard).2.symm.trans hscheduled) (by decide)
    exact awaiting_activate (awaits_set_of_ne (fun a _ => h a) _) (by rwa [set_client_self])
      (by simpa using (h w).transport)
  | nativeClosed w =>
    simp only [Server.next] at hnext
    split_ifs at hnext with hguard
    cases hnext
    have haccepted : (s.client w).accepted = true := by
      refine Bool.of_not_eq_false fun hfree => ?_
      have hinactive := ((hheld.sound w).waiting hfree).2.2.1
      simp [hinactive] at hguard
    exact awaiting_finalizeClose (awaits_set_of_ne (fun a _ => h a) _) (by rwa [set_client_self])
  | serverClose callback =>
    simp only [Server.next] at hnext
    split_ifs at hnext
    cases hnext
    have hlisten := h.advances (advances_listen callback)
    rw [Server.serverClose]
    split
    · exact hlisten
    · exact hlisten
  | tick =>
    simp only [Server.next] at hnext
    split at hnext
    case isFalse => cases hnext
    case isTrue =>
    split at hnext
    case h_1 => cases hnext
    case h_2 ticks hticks =>
      cases hnext
      have hticked : ({ s with ticks } : Server W K).Awaiting := h
      exact hticked.advances advances_finishClose
    case h_3 k ticks hticks =>
      cases hnext
      exact h
  | upgrade _ _ _ _ | refuse | failed | wrote _ | pollFails _ | socketErrors _ | socketEnds _
  | destroyLater _ | peerClose _ | transportError _ | transportEnds _ | backpressure _
  | progress _ _ | close _ _ | terminate _ | fail _ | closeTimeout _ =>
    exact h.advances (advances_next hnext trivial)

/-- The states of the runs whose exceptions leave `Server.close` only out of a client. -/
abbrev ReachesSourced (s : Server W K) : Prop :=
  Transition.Reachable (fun s : Server W K => ∃ maxBackpressure, s = { maxBackpressure })
    (fun s event s' => s.next event = some s' ∧ s.Sourced event) s

theorem ReachesSourced.completes (h : s.ReachesSourced) :
    s.Held ∧ s.Completes ∧ s.Awaiting := by
  refine h.invariant (P := fun s : Server W K => s.Held ∧ s.Completes ∧ s.Awaiting) ?_ ?_
  · rintro s ⟨maxBackpressure, rfl⟩
    exact ⟨Server.Reaches.held (.start ⟨maxBackpressure, rfl⟩), ⟨by simp, by simp⟩,
      fun _ => ⟨fun _ => rfl, by simp, by simp⟩⟩
  · rintro s event s' ⟨hheld, hcompletes, hawaiting⟩ ⟨hnext, hevent⟩
    exact ⟨hheld.next hnext, hcompletes.next hnext hevent, hawaiting.next hheld hnext⟩

end Server

variable [DecidableEq W] [DecidableEq K] {s : Server W K}

/-- **A server that closes is closed in the end.** Once `Server.close` was called, every accepted
client has lost its socket, no upgrade is to be activated, every native transport that was
activated has ended, and nothing is left to run, all of the clients are finalized, the server has
emitted `close` once, and it has called each callback that it was given exactly once: also where
an exception left `Server.close` before it had closed all of its clients. -/
theorem server_close_completes (h : s.ReachesSourced) (hclosing : s.closing = true)
    (hsockets : ∀ w, (s.client w).accepted = true → (s.client w).socketClosed = true)
    (hactivations : ∀ w, (s.client w).activationScheduled = false)
    (htransports : ∀ w, (s.client w).transportActive = true → (s.client w).transportClosed = true)
    (hstack : s.stack = []) (hticks : s.ticks = []) :
    (∀ w, (s.client w).accepted = true → (s.client w).closed = true) ∧
      s.closed = true ∧ s.closeEvents = 1 ∧
      ∀ k, s.called.count k = if k ∈ s.given then 1 else 0 := by
  obtain ⟨hheld, hcompletes, hawaiting⟩ := h.completes
  have hfinalized : ∀ w, (s.client w).accepted = true → (s.client w).closed = true := by
    intro w haccepted
    refine Bool.of_not_eq_false fun hopen => ?_
    rcases (hawaiting w).live haccepted hopen with hsocket | hscheduled | hactive
    · exact absurd ((hsockets w haccepted).symm.trans hsocket) (by decide)
    · exact absurd ((hactivations w).symm.trans hscheduled) (by decide)
    · exact absurd (((hawaiting w).transport (htransports w hactive)).symm.trans hopen) (by decide)
  have hclients : s.clients = [] := by
    apply List.eq_nil_iff_forall_not_mem.mpr
    intro w hw
    obtain ⟨haccepted, hopen⟩ := (hheld.members w).mp hw
    exact absurd (hopen.symm.trans (hfinalized w haccepted)) (by decide)
  have hclosed : s.closed = true := by
    rcases hcompletes.finishes hclosing hclients with hclosed | htick | ⟨ws, hws⟩
    · exact hclosed
    · rw [hticks] at htick
      cases htick
    · rw [hstack] at hws
      cases hws
  refine ⟨hfinalized, hclosed, ?_, fun k => ?_⟩
  · rw [hheld.closeEvents, hclosed]
    rfl
  · have hcallbacks := hheld.callbacks k
    rw [hcompletes.listeners hclosed, hticks, hstack] at hcallbacks
    rw [← hheld.given.count]
    simpa using hcallbacks

/-- A server that is closed by its client, after an exception of that client left
`Server.close`. -/
theorem server_close_completes_thrown : ∃ s : Server Unit Unit, s.ReachesSourced ∧
    (s.client ()).closed = true ∧ s.closeEvents = 1 ∧ s.called.count () = 1 := by
  have h₀ : Server.ReachesSourced ({ maxBackpressure := 0 } : Server Unit Unit) :=
    .start ⟨0, rfl⟩
  have h₁ := Transition.Reachable.next (a := Event.upgrade () false false 0) h₀ ⟨rfl, trivial⟩
  have h₂ := Transition.Reachable.next (a := Event.ret) h₁ ⟨rfl, trivial⟩
  have h₃ := Transition.Reachable.next (a := Event.ret) h₂ ⟨rfl, trivial⟩
  have h₄ := Transition.Reachable.next (a := Event.serverClose (some ())) h₃ ⟨rfl, trivial⟩
  have h₅ := Transition.Reachable.next (a := Event.ret) h₄ ⟨rfl, trivial⟩
  have h₆ := Transition.Reachable.next (a := Event.throw) h₅ ⟨rfl, fun _ _ => .inl (by decide)⟩
  -- The exception goes from the listener through `Server.close` to the callback of the upgrade.
  have h₇ := Transition.Reachable.next (a := Event.throw) h₆ ⟨rfl, fun _ _ => .inl (by decide)⟩
  have h₈ := Transition.Reachable.next (a := Event.ret) h₇ ⟨rfl, trivial⟩
  have h₉ := Transition.Reachable.next (a := Event.socketClosed ()) h₈ ⟨rfl, trivial⟩
  have h₁₀ := Transition.Reachable.next (a := Event.ret) h₉ ⟨rfl, trivial⟩
  have h₁₁ := Transition.Reachable.next (a := Event.ret) h₁₀ ⟨rfl, trivial⟩
  have h₁₂ := Transition.Reachable.next (a := Event.ret) h₁₁ ⟨rfl, trivial⟩
  have h₁₃ := Transition.Reachable.next (a := Event.ret) h₁₂ ⟨rfl, trivial⟩
  have h₁₄ := Transition.Reachable.next (a := Event.ret) h₁₃ ⟨rfl, trivial⟩
  obtain ⟨hfinalized, -, hevents, hcalled⟩ := server_close_completes h₁₄ rfl (fun _ _ => rfl)
    (fun _ => rfl) (fun _ hactive => absurd hactive Bool.false_ne_true) rfl rfl
  exact ⟨_, h₁₄, hfinalized () rfl, hevents, hcalled ()⟩

end Eiows.Lifecycle
