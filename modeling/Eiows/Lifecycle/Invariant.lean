import Eiows.Lifecycle.Server

/-!
# The invariant of a server

A client is registered from its acceptance to its finalisation. A function on the stack
finds what it relies on when it goes on, and every callback that the server was given is
in one place: among the listeners, in the queue of the next tick, in the list of a
`_finishClose` that has not returned, or among those that have been called.
-/

namespace Eiows.Lifecycle

variable {W K : Type}

/-- What the fields of a client say about each other. -/
structure Client.Sound (c : Client) : Prop where
  finished : c.closed = true → c.accepted = true ∧ c.upgradePending = false ∧
    c.nativeActive = false ∧ c.external = false ∧ c.readyState = .closed
  live : c.accepted = true → c.closed = false → c.external = true ∧ c.server = true
  notClosed : c.closed = false → c.readyState ≠ .closed
  waiting : c.accepted = false → c.upgradePending = false ∧ c.nativeActive = false ∧
    c.transportActive = false ∧ c.activationScheduled = false ∧ c.destroyScheduled = false ∧
    c.closeTimer = false
  socket : c.accepted = true → c.socketClosed = false → c.transportSocket = true
  scheduled : c.activationScheduled = true → c.nativeTransport = true ∧ c.transportSocket = false
  session : c.external = true ∨ c.accepted = true → c.session = true
  disposals : c.disposals = (c.session && !c.external).toNat
  reopened : c.reopened = false

/-- The callbacks that a frame has still to call. -/
def Frame.callbacks : Frame W K → List K
  | .notifying callbacks => callbacks
  | _ => []

/-- A frame that neither runs the listeners of `headers`, nor follows a removal, nor has callbacks
to call. -/
def Frame.isPlain : Frame W K → Bool
  | .headers _ | .removing _ | .notifying _ => false
  | _ => true

namespace Server

/-- What a function on the stack relies on. -/
def Entered (s : Server W K) : Frame W K → Prop
  | .activation w =>
    (s.client w).accepted = true ∧ (s.client w).nativeTransport = true ∧
      (s.client w).transportSocket = false ∧
      ((s.client w).closed = true → (s.client w).transportClosing = true)
  | .writing w =>
    (s.client w).accepted = true ∧ (s.client w).nativeTransport = true ∧
      (s.client w).transportSocket = false ∧ (s.client w).nativeActive = true
  | .notifying _ => s.closed = true
  | .sweeping ws => s.closing = true ∧ ∀ w ∈ ws, (s.client w).accepted = true
  | .headers _ | .listening => True
  | .response w | .accepted w | .activated w | .reporting w | .failing w | .releasing w
  | .replying w | .removing w => (s.client w).accepted = true

variable [DecidableEq W] [DecidableEq K]

/-- The invariant of a server. -/
structure Held (s : Server W K) : Prop where
  sound : ∀ w, (s.client w).Sound
  members : ∀ w, w ∈ s.clients ↔ (s.client w).accepted = true ∧ (s.client w).closed = false
  nodup : s.clients.Nodup
  emitted : ∀ w, (s.client w).closeEvents + s.stack.count (.removing w) =
    (s.client w).closed.toNat
  headers : ∀ w, s.stack.count (.headers w) =
    ((s.client w).external && !(s.client w).accepted).toNat
  entered : ∀ frame ∈ s.stack, s.Entered frame
  finished : s.closed = true → s.closing = true ∧ s.clients = []
  closeEvents : s.closeEvents = s.closed.toNat
  finishing : .finishClose ∈ s.ticks → s.closing = true ∧ s.clients = []
  calling : ∀ k, .call k ∈ s.ticks → s.closed = true
  given : s.given.Nodup
  callbacks : ∀ k, s.listeners.count k + s.ticks.count (.call k) +
    (s.stack.flatMap Frame.callbacks).count k + s.called.count k = s.given.count k
  notEarly : s.early = false
  notLate : s.late = false

variable {s : Server W K} {w : W} {c : Client}

/-- A change of the fields of a client that decides nothing for the others. -/
structure Keeps (c c' : Client) : Prop where
  sound : c'.Sound
  accepted : c'.accepted = c.accepted
  closed : c'.closed = c.closed
  external : c'.external = c.external
  closeEvents : c'.closeEvents = c.closeEvents
  nativeTransport : c'.nativeTransport = c.nativeTransport
  nativeActive : c.nativeActive = true → c'.nativeActive = true
  transportSocket : c.transportSocket = false → c'.transportSocket = false
  transportClosing : c.transportClosing = true → c'.transportClosing = true

omit [DecidableEq K] in
@[simp]
theorem set_client_self (f : Client → Client) : (s.set w f).client w = f (s.client w) :=
  Function.update_self ..

omit [DecidableEq K] in
theorem set_client_of_ne {a : W} (ha : a ≠ w) (f : Client → Client) :
    (s.set w f).client a = s.client a :=
  Function.update_of_ne ha ..

omit [DecidableEq K] in
@[simp]
theorem set_stack (f : Client → Client) : (s.set w f).stack = s.stack := rfl

omit [DecidableEq W] [DecidableEq K] in
/-- A function that relies on clients keeps what it relies on. -/
theorem Entered.congr {s' : Server W K} {frame : Frame W K} (h : s.Entered frame)
    (hclosed : s.closed = true → s'.closed = true)
    (hclosing : s.closing = true → s'.closing = true)
    (haccepted : ∀ w, (s.client w).accepted = true → (s'.client w).accepted = true)
    (hactivation : ∀ w, frame = .activation w ∨ frame = .writing w →
      (s.client w).accepted = true → (s.client w).nativeTransport = true →
      (s.client w).transportSocket = false →
      (s'.client w).nativeTransport = true ∧ (s'.client w).transportSocket = false)
    (hfinalized : ∀ w, frame = .activation w → (s.client w).nativeTransport = true →
      ((s.client w).closed = true → (s.client w).transportClosing = true) →
      ((s'.client w).closed = true → (s'.client w).transportClosing = true))
    (hactive : ∀ w, frame = .writing w → (s.client w).nativeActive = true →
      (s'.client w).nativeActive = true) : s'.Entered frame := by
  cases frame with
  | activation w =>
    obtain ⟨h₁, h₂, h₃, h₄⟩ := h
    obtain ⟨h₅, h₆⟩ := hactivation w (.inl rfl) h₁ h₂ h₃
    exact ⟨haccepted w h₁, h₅, h₆, hfinalized w rfl h₂ h₄⟩
  | writing w =>
    obtain ⟨h₁, h₂, h₃, h₄⟩ := h
    obtain ⟨h₅, h₆⟩ := hactivation w (.inr rfl) h₁ h₂ h₃
    exact ⟨haccepted w h₁, h₅, h₆, hactive w rfl h₄⟩
  | notifying _ => exact hclosed h
  | sweeping ws => exact ⟨hclosing h.1, fun w hw => haccepted w (h.2 w hw)⟩
  | headers _ | listening => trivial
  | response w | accepted w | activated w | reporting w | failing w | releasing w | replying w
  | removing w => exact haccepted w h

theorem Held.set (h : s.Held) {f : Client → Client} (hkeeps : Keeps (s.client w) (f (s.client w))) :
    (s.set w f).Held := by
  have hsame : ∀ a (P : Client → Client → Prop), P (s.client w) (f (s.client w)) →
      (∀ c, P c c) → P (s.client a) ((s.set w f).client a) := by
    intro a P hself hother
    by_cases ha : a = w
    · subst ha
      rwa [set_client_self]
    · rw [set_client_of_ne ha]
      exact hother _
  exact {
    sound := fun a => by
      by_cases ha : a = w
      · subst ha
        rw [set_client_self]
        exact hkeeps.sound
      · rw [set_client_of_ne ha]
        exact h.sound a
    members := fun a => by
      rw [hsame a (fun c c' => c'.accepted = c.accepted) hkeeps.accepted fun _ => rfl,
        hsame a (fun c c' => c'.closed = c.closed) hkeeps.closed fun _ => rfl]
      exact h.members a
    nodup := h.nodup
    emitted := fun a => by
      rw [hsame a (fun c c' => c'.closeEvents = c.closeEvents) hkeeps.closeEvents fun _ => rfl,
        hsame a (fun c c' => c'.closed = c.closed) hkeeps.closed fun _ => rfl]
      exact h.emitted a
    headers := fun a => by
      rw [hsame a (fun c c' => c'.accepted = c.accepted) hkeeps.accepted fun _ => rfl,
        hsame a (fun c c' => c'.external = c.external) hkeeps.external fun _ => rfl]
      exact h.headers a
    entered := fun frame hframe => by
      refine (h.entered frame hframe).congr id id (fun a => ?_) (fun a _ _ hnative hsocket => ?_)
        (fun a _ _ => ?_) (fun a _ => ?_)
      · rw [hsame a (fun c c' => c'.accepted = c.accepted) hkeeps.accepted fun _ => rfl]
        exact id
      · rw [hsame a (fun c c' => c'.nativeTransport = c.nativeTransport) hkeeps.nativeTransport
          fun _ => rfl]
        exact ⟨hnative, hsame a (fun c c' => c.transportSocket = false → c'.transportSocket = false)
          hkeeps.transportSocket (fun _ => id) hsocket⟩
      · rw [hsame a (fun c c' => c'.closed = c.closed) hkeeps.closed fun _ => rfl]
        exact fun hold hclosed => hsame a
          (fun c c' => c.transportClosing = true → c'.transportClosing = true)
          hkeeps.transportClosing (fun _ => id) (hold hclosed)
      · exact hsame a (fun c c' => c.nativeActive = true → c'.nativeActive = true)
          hkeeps.nativeActive fun _ => id
    finished := h.finished
    closeEvents := h.closeEvents
    finishing := h.finishing
    calling := h.calling
    given := h.given
    callbacks := h.callbacks
    notEarly := h.notEarly
    notLate := h.notLate }

/-- A frame that no counter of the invariant counts. -/
structure Frame.Plain (frame : Frame W K) : Prop where
  notHeaders : ∀ w, frame ≠ .headers w
  notRemoving : ∀ w, frame ≠ .removing w
  callbacks : frame.callbacks = []

/-- A function calls out. -/
theorem Held.push (h : s.Held) {frame : Frame W K} (hentered : s.Entered frame)
    (hplain : Frame.Plain frame) : (s.push frame).Held :=
  { h with
    emitted := fun a => by
      rw [Server.push, List.count_cons_of_ne (hplain.notRemoving a)]
      exact h.emitted a
    headers := fun a => by
      rw [Server.push, List.count_cons_of_ne (hplain.notHeaders a)]
      exact h.headers a
    entered := fun a ha => by
      rcases List.mem_cons.mp ha with rfl | ha
      · exact hentered.congr id id (fun _ => id) (fun _ _ _ h₁ h₂ => ⟨h₁, h₂⟩)
          (fun _ _ _ => id) (fun _ _ => id)
      · exact (h.entered a ha).congr id id (fun _ => id) (fun _ _ _ h₁ h₂ => ⟨h₁, h₂⟩)
          (fun _ _ _ => id) (fun _ _ => id)
    callbacks := fun k => by
      rw [Server.push, List.flatMap_cons, hplain.callbacks, List.nil_append]
      exact h.callbacks k }

/-- The function on top of the stack returns. -/
theorem Held.pop (h : s.Held) {frame : Frame W K} {stack : List (Frame W K)}
    (hstack : s.stack = frame :: stack) (hplain : Frame.Plain frame) : { s with stack }.Held :=
  { h with
    emitted := fun a => by
      have hemitted := h.emitted a
      rwa [hstack, List.count_cons_of_ne (hplain.notRemoving a)] at hemitted
    headers := fun a => by
      have hheaders := h.headers a
      rwa [hstack, List.count_cons_of_ne (hplain.notHeaders a)] at hheaders
    entered := fun a ha =>
      (h.entered a (hstack ▸ List.mem_cons_of_mem _ ha)).congr id id (fun _ => id)
        (fun _ _ _ h₁ h₂ => ⟨h₁, h₂⟩) (fun _ _ _ => id) (fun _ _ => id)
    callbacks := fun k => by
      have hcallbacks := h.callbacks k
      rwa [hstack, List.flatMap_cons, hplain.callbacks, List.nil_append] at hcallbacks }

/-- `_finishClose`, of a server without clients. -/
theorem Held.finishClose (h : s.Held) (hclosing : s.closing = true) (hclients : s.clients = []) :
    s.finishClose.Held := by
  rw [Server.finishClose]
  split
  case isTrue => exact h
  case isFalse hclosed =>
  rw [Bool.not_eq_true] at hclosed
  exact { h with
    emitted := fun a => by
      rw [List.count_cons_of_ne (by simp)]
      exact h.emitted a
    headers := fun a => by
      rw [List.count_cons_of_ne (by simp)]
      exact h.headers a
    entered := fun a ha => by
      rcases List.mem_cons.mp ha with rfl | ha
      · rfl
      · exact (h.entered a ha).congr (fun _ => rfl) id (fun _ => id)
          (fun _ _ _ h₁ h₂ => ⟨h₁, h₂⟩) (fun _ _ _ => id) (fun _ _ => id)
    finished := fun _ => ⟨hclosing, hclients⟩
    closeEvents := by rw [h.closeEvents, hclosed]; rfl
    calling := fun _ _ => rfl
    callbacks := fun k => by
      have hcallbacks := h.callbacks k
      simp only [List.flatMap_cons, List.count_append, List.count_nil, Frame.callbacks]
      omega
    notEarly := by simp [h.notEarly, hclients] }

/-- The fields of a client after `_finalizeClose`. -/
def finalized (c : Client) : Client :=
  { c.setReadyState .closed with
    closed := true
    upgradePending := false
    closeTimer := false
    disposals := c.disposals + c.external.toNat
    external := false
    transportClosing := c.transportClosing || c.nativeTransport
    nativeActive := false
    server := false }

theorem finalized_sound (h : c.Sound) (haccepted : c.accepted = true) (hclosed : c.closed = false) :
    (finalized c).Sound := by
  have hexternal := (h.live haccepted hclosed).1
  have hsession := h.session (.inl hexternal)
  have hdisposals := h.disposals
  exact {
    finished := fun _ => ⟨haccepted, rfl, rfl, rfl, rfl⟩
    live := fun _ hfalse => absurd hfalse (by simp [finalized])
    notClosed := fun hfalse => absurd hfalse (by simp [finalized])
    waiting := fun hfalse => absurd (hfalse.symm.trans haccepted) (by decide)
    socket := h.socket
    scheduled := h.scheduled
    session := fun _ => hsession
    disposals := by
      simp only [finalized, Client.setReadyState, hdisposals, hsession, hexternal]
      decide
    reopened := by simp [finalized, Client.setReadyState, h.reopened] }

/-- `_finalizeClose`. -/
theorem Held.finalizeClose (h : s.Held) (haccepted : (s.client w).accepted = true)
    (hwriting : .writing w ∉ s.stack) : (s.finalizeClose w).Held := by
  rw [Server.finalizeClose]
  split
  case isTrue => exact h
  case isFalse hclosed =>
  rw [Bool.not_eq_true] at hclosed
  have hsound := h.sound w
  obtain ⟨hexternal, hserver⟩ := hsound.live haccepted hclosed
  rw [if_pos hserver]
  have hset : ∀ f : Client → Client, f = finalized →
      ({ (s.set w f).push (.removing w) with
        clients := s.clients.filter (· ≠ w) } : Server W K).Held := by
    rintro f rfl
    refine { h with
      sound := fun a => ?sound, members := fun a => ?members, nodup := h.nodup.filter _,
      emitted := fun a => ?emitted, headers := fun a => ?headers,
      entered := fun frame hframe => ?entered, finished := fun hfinished => ?finished,
      finishing := fun hticks => ?finishing, callbacks := fun k => ?callbacks }
    case sound =>
      by_cases ha : a = w
      · subst ha
        simpa [Server.push] using finalized_sound hsound haccepted hclosed
      · simpa [Server.push, set_client_of_ne ha] using h.sound a
    case members =>
      by_cases ha : a = w
      · subst ha
        simp [Server.push, finalized]
      · simp [Server.push, set_client_of_ne ha, ha, h.members a]
    case emitted =>
      have hemitted := h.emitted a
      by_cases ha : a = w
      · subst ha
        simp only [Server.push, set_client_self, List.count_cons_self, hclosed] at hemitted ⊢
        simp only [finalized, Client.setReadyState, Bool.toNat_true]
        rw [Bool.toNat_false] at hemitted
        exact congrArg (· + 1) hemitted
      · simp only [Server.push, set_client_of_ne ha]
        rw [List.count_cons_of_ne (by simpa using Ne.symm ha)]
        exact hemitted
    case headers =>
      have hheaders := h.headers a
      simp only [Server.push]
      rw [List.count_cons_of_ne (by simp)]
      by_cases ha : a = w
      · subst ha
        simp only [set_client_self, set_stack, haccepted] at hheaders ⊢
        simpa [finalized, Client.setReadyState] using hheaders
      · simpa only [set_client_of_ne ha, set_stack] using hheaders
    case entered =>
      have hkeep : ∀ a, (s.client a).accepted = true →
          ((s.set w finalized).client a).accepted = true := by
        intro a ha
        by_cases haw : a = w
        · subst haw
          rw [set_client_self]
          exact ha
        · rwa [set_client_of_ne haw]
      rcases List.mem_cons.mp hframe with rfl | hframe
      · exact hkeep w haccepted
      · refine (h.entered frame hframe).congr id id hkeep (fun a _ _ hnative hsocket => ?_)
          (fun a _ hnative hold => ?_) (fun a ha hactive => ?_)
        · by_cases haw : a = w
          · subst haw
            simpa [Server.push, finalized, Client.setReadyState] using ⟨hnative, hsocket⟩
          · simpa [Server.push, set_client_of_ne haw] using ⟨hnative, hsocket⟩
        · by_cases haw : a = w
          · subst haw
            simp [Server.push, finalized, hnative]
          · simpa [Server.push, set_client_of_ne haw] using hold
        · by_cases haw : a = w
          · subst haw
            exact absurd (ha ▸ hframe) hwriting
          · simpa [Server.push, set_client_of_ne haw] using hactive
    case finished =>
      obtain ⟨hclosing, hnil⟩ := h.finished hfinished
      exact ⟨hclosing, by simp [hnil]⟩
    case finishing =>
      obtain ⟨hclosing, hnil⟩ := h.finishing hticks
      exact ⟨hclosing, by simp [hnil]⟩
    case callbacks =>
      simp only [Server.push, List.flatMap_cons, Frame.callbacks, List.nil_append]
      exact h.callbacks k
  have hheld := hset _ rfl
  rw [Server.remove]
  split
  case isFalse => exact hheld
  case isTrue hempty =>
    rw [Bool.and_eq_true, List.isEmpty_iff] at hempty
    exact hheld.finishClose hempty.1 hempty.2

end Server

end Eiows.Lifecycle
