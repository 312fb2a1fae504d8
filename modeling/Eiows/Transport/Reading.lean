import Eiows.Session.CloseState
import Eiows.Transport.Submission

/-!
# Reading and closing

The events of a chunk are dispatched one by one, and code of the application runs
in between. The CLOSE event follows its Close frame at once.
-/

namespace Eiows

open Interaction

variable {Z : Zlib} {c : Connection Z}

/-- What a function leaves that runs while the application may run. -/
structure Serves (c c' : Connection Z) : Prop where
  native : Native c'
  rely : Rely c c'
  silent : Silent c c'
  owed : c.log.owed = c'.log.owed
  guarded : c'.Guarded

theorem Serves.refl (h : Native c) (hguarded : c.Guarded) : Serves c c :=
  ⟨h, .refl c, .refl c, rfl, hguarded⟩

theorem Serves.trans {c' c'' : Connection Z} (h : Serves c c') (h' : Serves c' c'') : Serves c c'' :=
  ⟨h'.native, h.rely.trans h'.rely, h.silent.trans h'.silent, h.owed.trans h'.owed, h'.guarded⟩

theorem Serves.keeps {c' : Connection Z} (h : Serves c c') : Keeps c c' :=
  ⟨h.native, h.rely, h.silent, h.owed, fun _ => h.guarded⟩

theorem Serves.settled {c' : Connection Z} (h : Serves c c') : Settled c' :=
  h.native.settled h.guarded

theorem Keeps.serves {c' : Connection Z} (h : Keeps c c') (hguarded : c.Guarded) : Serves c c' :=
  ⟨h.native, h.rely, h.silent, h.owed, h.guarded hguarded⟩

theorem Leaves.serves {c' : Connection Z} (h : Leaves none c c') (hc : Native c) : Serves c c' :=
  ⟨(h.keeps hc).native, h.rely, h.silent, h.owed, h.settled.guarded⟩

theorem Submitted.owed {c' : Connection Z} {kind : Outgoing} {content : Bytes}
    {result : NativeResult} (h : Submitted c kind content none c.log.owed result c') :
    c.log.owed = c'.log.owed := by
  by_cases hasync : result = .status WRITE_ASYNCHRONOUS
  · exact (h.asynchronous hasync).symm
  · exact (h.otherwise hasync).symm

theorem Native.guarded_of_severed (h : Native c)
    (hend : c.transport.sessionAttached = false ∨ c.transport.closing = true) : c.Guarded := by
  have hclosing : c.transport.closing = true := by
    rcases hend with hdetached | hclosing
    · exact h.severed h.active (.inl hdetached)
    · exact hclosing
  exact fun _ _ => .inr hclosing

/-- What reading leaves. A session that has ended has nothing to say. -/
structure Processed (c : Connection Z) (good : Prop) (c' : Connection Z) : Prop extends Serves c c' where
  opened : good → c'.transport.closing = false
  untouched : c.session.session.closing = true → Untouched c c'

theorem Processed.trans {c' c'' : Connection Z} {good good' good'' : Prop} (h : Processed c good c')
    (h' : Processed c' good' c'') (hgood : good'' → good') : Processed c good'' c'' where
  toServes := h.toServes.trans h'.toServes
  opened := fun hresult => h'.opened (hgood hresult)
  untouched := fun hended =>
    (h.untouched hended).trans (h'.untouched (h.rely.sessionClosing hended)) h'.rely

/-- What the dispatch of some events leaves. `sent` says whether the Close frame
precedes the events. -/
structure Dispatched (sent : Bool) (c : Connection Z) (result : Bool) (c' : Connection Z) :
    Prop where
  native : Native c'
  rely : Rely c c'
  silent : sent = true → Silent c c'
  owed : c.log.owed = c'.log.owed
  guarded : c'.Guarded
  opened : result = true → c'.transport.closing = false

/-- Only a CLOSE event has to be told. -/
theorem Connection.Told.dispatch (h : c.Told) {event : Event}
    (hother : ∀ code reason, event ≠ .close code reason) :
    (c.mapLog fun log => { log with dispatched := log.dispatched ++ [event] }).Told := by
  rintro ⟨code, reason, hmem⟩ hopen
  refine h ⟨code, reason, (List.mem_append.mp hmem).resolve_right fun hnew => ?_⟩ hopen
  exact hother code reason (List.mem_singleton.mp hnew).symm

namespace NativeTransport

variable {k : Callees Z}

/-- A frame of the session. -/
private theorem meets_writeOwned (hk : k.Sound) (h : Native c) {data : Bytes}
    (hadmissible : Admissible c (.session, data)) :
    (writeOwned k .session data c).Meets (contract Z) fun result c' =>
      Submitted c .session data none c.log.owed result c' := by
  have hcontent : (WriteRequest.addPart data {}).content = data := by
    simp [WriteRequest.content, WriteRequest.addPart]
  have hsubmit := meets_submit (r := WriteRequest.addPart data {}) hk h .session rfl rfl
    c.log.owed rfl (by rw [hcontent]; exact hadmissible)
  rw [hcontent] at hsubmit
  exact hsubmit

theorem pong_kind {data : Bytes} (hhead : data.head? = some 0x8a) :
    isCloseFrame (.session, data) = false ∧ isDataFrame (.session, data) = false := by
  simp only [isCloseFrame, isDataFrame, hhead]
  decide

/-- A transport that cannot go on is closing, or has lost its session. -/
private theorem ended_of_stopped (h : (!c.transport.sessionAttached || c.transport.closing) = true) :
    c.transport.sessionAttached = false ∨ c.transport.closing = true := by
  simpa [Bool.or_eq_true] using h

/-- The CLOSE event, which takes the owner out of `OPEN`. -/
private theorem meets_dispatchClose (hk : k.Sound) (h : Native c) (code : ℕ) (reason : Bytes)
    (hclosing : c.session.session.closing = true) :
    (dispatchEvents k [.close code reason] c).Meets (contract Z) fun result c' =>
      Dispatched true c result c' := by
  simp only [dispatchEvents, Program.meets_bind, meets_transport, Program.meets_ite,
    Program.meets_pure, meets_modifyLog, meets_modifyTransport]
  split
  · next hstopped =>
    exact ⟨h, .refl c, fun _ => .refl c, rfl, h.guarded_of_severed (ended_of_stopped hstopped),
      fun hfalse => by cases hfalse⟩
  · next hgoes =>
    simp only [Bool.or_eq_true, not_or, Bool.not_eq_true] at hgoes
    refine Comm.Meets.mono (hk.maybeFinishPeerClose ?_) ?_
    · exact { h with
        requested := fun _ => hclosing
        pendingClose := fun hclosed => absurd (hclosed.symm.trans hgoes.2) (by decide)
        told := fun hfalse => by cases hfalse }
    · intro _ c' hclosed
      exact ⟨hclosed.native, { hclosed.rely with }, fun _ => hclosed.silent, hclosed.owed,
        hclosed.guarded (.inr rfl), fun hopen => by simpa using hopen⟩

/-- A FRAME event, where the rest of the batch is dispatched as shown. -/
private theorem meets_dispatchFrame (hk : k.Sound) (h : Native c) {data : Bytes} {es : List Event}
    {sent : Bool} (hadmissible : Admissible c (.session, data))
    (hguarded : c.Guarded) (hsilent : sent = true → isCloseFrame (.session, data) = false)
    (hrest : ∀ c', Native c' → Rely c c' → (isCloseFrame (.session, data) = false → c'.Guarded) →
      (isCloseFrame (.session, data) = false → Silent c c') →
        (dispatchEvents k es c').Meets (contract Z) fun result c'' => Dispatched sent c' result c'') :
    (dispatchEvents k (.frame data :: es) c).Meets (contract Z) fun result c' =>
      Dispatched sent c result c' := by
  rw [dispatchEvents]
  simp only [Program.meets_bind, meets_transport, Program.meets_ite,
    Program.meets_pure, meets_modifyLog]
  split
  · next hstopped =>
    exact ⟨h, .refl c, fun _ => .refl c, rfl, hguarded, fun hfalse => by cases hfalse⟩
  · set c₁ := c.mapLog fun log => { log with dispatched := log.dispatched ++ [.frame data] } with hc₁
    have hnative₁ : Native c₁ := { h with told := h.told.dispatch fun _ _ => by simp }
    have hrely₁ : Rely c c₁ := { Rely.refl c with }
    refine Comm.Meets.mono (meets_writeOwned hk hnative₁ ⟨hadmissible.orderly,
      hadmissible.closeSent⟩) ?_
    intro result c₂ hsubmitted
    have hserves : ∀ c', Leaves none c₂ c' → Dispatched sent c false c' := by
      intro c' hleaves
      refine ⟨(hleaves.keeps hsubmitted.native).native,
        (hrely₁.trans hsubmitted.rely).trans hleaves.rely, fun hs => ?_,
        hsubmitted.owed.trans hleaves.owed, hleaves.settled.guarded, fun hfalse => by cases hfalse⟩
      exact (hsubmitted.silent (hsilent hs)).trans hleaves.silent
    cases result with
    | threw =>
      refine Program.meets_bind.mpr ((meets_fail hk hsubmitted.native).mono ?_)
      rintro _ c' ⟨hleaves, -⟩
      exact hserves c' hleaves
    | status status =>
      simp only [Program.meets_ite, Program.meets_bind, Program.meets_pure]
      split
      · refine (meets_fail hk hsubmitted.native).mono ?_
        rintro _ c' ⟨hleaves, -⟩
        exact hserves c' hleaves
      · refine (hrest c₂ hsubmitted.native (hrely₁.trans hsubmitted.rely) ?_ ?_).mono ?_
        · intro hother
          exact hsubmitted.guarded hguarded fun hclose =>
            absurd (hclose.symm.trans hother) (by decide)
        · exact fun hother => hsubmitted.silent hother
        · intro result c' hdispatched
          exact ⟨hdispatched.native, (hrely₁.trans hsubmitted.rely).trans hdispatched.rely,
            fun hs => (hsubmitted.silent (hsilent hs)).trans (hdispatched.silent hs),
            hsubmitted.owed.trans hdispatched.owed, hdispatched.guarded, hdispatched.opened⟩

/-- The dispatch of a list of events, by induction on what a batch may hold. -/
theorem meets_dispatchEvents (hk : k.Sound) {es : List Event} {closing sent closing' sent' : Bool}
    (hbatch : Batch closing sent es closing' sent') :
    ∀ {c : Connection Z}, Native c → c.Guarded →
      (sent = false → sent' = true → c.session.session.closeSent = true ∧ ¬c.CloseQueued) →
      (closing = false → closing' = true → c.session.session.closing = true) →
      (dispatchEvents k es c).Meets (contract Z) fun result c' => Dispatched sent c result c' := by
  induction hbatch with
  | nil closing sent =>
    intro c h hguarded _ _
    simp only [dispatchEvents, Program.meets_bind, meets_transport, Program.meets_pure]
    exact ⟨h, .refl c, fun _ => .refl c, rfl, hguarded, fun hopen => by simpa using hopen⟩
  | @message sent closing' sent' es payload opCode hrest ih =>
    intro c h hguarded hunsent hclosing
    rw [dispatchEvents]
    simp only [dispatchMessage, Program.meets_bind, meets_transport, Program.meets_ite,
      Program.meets_pure, meets_modifyLog]
    have hstop : Dispatched sent c false c :=
      ⟨h, .refl c, fun _ => .refl c, rfl, hguarded, fun hfalse => by cases hfalse⟩
    split
    · exact hstop
    · split
      · rw [if_neg (by decide)]
        exact hstop
      · set c₁ := c.mapLog fun log =>
          { log with dispatched := log.dispatched ++ [.message payload opCode] } with hc₁
        have hnative₁ : Native c₁ := { h with told := h.told.dispatch fun _ _ => by simp }
        have hrely₁ : Rely c c₁ := { Rely.refl c with }
        refine (hk.owner (.message payload (opCode = .binary)) rfl (hnative₁.settled hguarded)
          trivial).mono ?_
        intro returned c₂ hleaves
        have hkeeps := hleaves.keeps hnative₁
        split
        · refine (ih hkeeps.native hleaves.settled.guarded ?_ ?_).mono ?_
          · intro hs hs'
            obtain ⟨hsent, hnone⟩ := hunsent hs hs'
            obtain ⟨hsent₂, hqueued⟩ := hleaves.silent hsent
            exact ⟨hsent₂, fun hclose => hnone (hqueued hclose)⟩
          · exact fun hc hc' => hleaves.rely.sessionClosing (hclosing hc hc')
          · intro result c' hdispatched
            exact ⟨hdispatched.native, (hrely₁.trans hleaves.rely).trans hdispatched.rely,
              fun hs => hleaves.silent.trans (hdispatched.silent hs),
              hleaves.owed.trans hdispatched.owed, hdispatched.guarded, hdispatched.opened⟩
        · exact ⟨hkeeps.native, hrely₁.trans hleaves.rely, fun _ => hleaves.silent, hleaves.owed,
            hleaves.settled.guarded, fun hfalse => by cases hfalse⟩
  | @pong sent closing' sent' es data hhead hrest ih =>
    intro c h hguarded hunsent hclosing
    obtain ⟨hother, hcontrol⟩ := pong_kind hhead
    refine meets_dispatchFrame hk h ⟨fun _ _ => ⟨hother, hcontrol⟩, fun hclose =>
      absurd (hclose.symm.trans hother) (by decide)⟩ hguarded (fun _ => hother) ?_
    intro c' hnative hrely hguarded' hsilent
    refine ih hnative (hguarded' hother) ?_ ?_
    · intro hs hs'
      obtain ⟨hsent, hnone⟩ := hunsent hs hs'
      obtain ⟨hsent₂, hqueued⟩ := hsilent hother hsent
      exact ⟨hsent₂, fun hclose => hnone (hqueued hclose)⟩
    · exact fun hc hc' => hrely.sessionClosing (hclosing hc hc')
  | @reply data hhead code reason =>
    intro c h hguarded hunsent hclosing
    obtain ⟨hsent, hnone⟩ := hunsent rfl rfl
    refine meets_dispatchFrame hk h ⟨fun _ hclose => absurd hclose hnone, fun _ => hsent⟩ hguarded
      (fun hs => by cases hs) ?_
    intro c' hnative hrely _ _
    refine (meets_dispatchClose hk hnative code reason
      (hrely.sessionClosing (hclosing rfl rfl))).mono ?_
    exact fun result c'' hdispatched => { hdispatched with silent := fun hs => by cases hs }
  | ended code reason =>
    intro c h hguarded hunsent hclosing
    exact meets_dispatchClose hk h code reason (hclosing rfl rfl)

/-- A session that has ended has no events. -/
private theorem meets_dispatchEvents_closing {es : List Event} {closing sent closing' sent' : Bool}
    (hbatch : Batch closing sent es closing' sent') (hended : closing = true) :
    (dispatchEvents k es c).Meets (contract Z) fun _ c' => Untouched c c' := by
  subst hended
  obtain ⟨rfl, -⟩ := hbatch.of_closing
  exact .refl c

/-- A chunk of the peer. -/
theorem meets_consume (hk : k.Sound) (h : Native c) (hguarded : c.Guarded) (data : Bytes) :
    (consume k data c).Meets (contract Z) fun result c' => Processed c (result = true) c' := by
  have hbatch := StreamWebSocket.consume_batch data c.session
  obtain ⟨hclosing, hsent⟩ := hbatch.mono
  unfold consume
  simp only [Program.meets_bind, Program.meets_get, Program.meets_modify, Program.meets_pure]
  set c₁ : Connection Z := { c with session := c.session.consume data } with hc₁
  have hnative₁ : Native c₁ := { h with
    closeSent := fun hqueued => hsent (h.closeSent hqueued)
    requested := fun hrequested => hclosing (h.requested hrequested) }
  have hrely₁ : Rely c c₁ := { Rely.refl c with sessionClosing := hclosing }
  refine ((meets_dispatchEvents hk hbatch hnative₁ hguarded ?_ fun _ hc => hc).imp
    (meets_dispatchEvents_closing hbatch)).mono ?_
  · intro hs hs'
    refine ⟨hs', fun hqueued => ?_⟩
    exact absurd (hs.symm.trans (h.closeSent hqueued)) (by decide)
  · rintro result c₂ ⟨hdispatched, huntouched⟩
    refine ⟨⟨{ hdispatched.native with }, { hrely₁.trans hdispatched.rely with }, ?_,
      hdispatched.owed, hdispatched.guarded⟩, hdispatched.opened, huntouched⟩
    intro hs
    exact hdispatched.silent hs (hsent hs)

/-- A change of the transport that no invariant looks at. -/
private theorem serves_of_native (c' : Connection Z) (h : Native c') (hguarded : c.Guarded)
    (hrely : Rely c c') (hframes : c'.log = c.log) (hsession : c'.session = c.session)
    (hwebSocket : c'.webSocket = c.webSocket) : Serves c c' := by
  refine ⟨h, hrely, ?_, by rw [hframes], ?_⟩
  · intro hsent
    refine ⟨by rw [hsession]; exact hsent, fun hqueued => ?_⟩
    unfold Connection.CloseQueued at hqueued ⊢
    rw [hframes] at hqueued
    exact hqueued
  · intro honTime hqueued
    unfold Connection.CloseQueued at hqueued
    rw [hframes] at honTime hqueued
    rw [hwebSocket]
    exact (hguarded honTime hqueued).imp_right hrely.closing

private theorem serves_produce (h : Native c) (hguarded : c.Guarded)
    (hopen : c.transport.closing = false) (ciphertext : Bytes) :
    Serves c ((c.mapTransport fun t =>
      { t with nodeWriteBIO := t.nodeWriteBIO ++ ciphertext }).mapLog
        fun log => { log with ciphertext := log.ciphertext ++ ciphertext }) :=
  ⟨{ h with toStable := h.toStable.produce hopen ciphertext }, { Rely.refl c with }, .refl c, rfl,
    hguarded⟩

/-- One pass of the loop of `processMemoryBIO`. -/
theorem meets_readPlaintext (hk : k.Sound) (h : Native c) (hguarded : c.Guarded)
    (hopen : c.transport.closing = false) :
    (readPlaintext k c).Meets (contract Z) fun result c' => Processed c (result ≠ .inl false) c' := by
  unfold readPlaintext produce
  simp only [Program.meets_bind, meets_transport, Program.meets_ite, Program.meets_pure]
  rw [if_neg (by rw [hopen]; decide)]
  refine meets_ask.mpr ⟨⟨h.toObserved, fun _ => h.uses hopen⟩, fun result _ => ?_⟩
  have hended : ∀ {c₁ c' : Connection Z}, Serves c c₁ → Leaves none c₁ c' →
      c'.transport.closing = true → Processed c (Sum.inl false ≠ (.inl false : Bool ⊕ Unit)) c' := by
    intro c₁ c' hserves hleaves hclosing
    exact ⟨hserves.trans (hleaves.serves hserves.native), fun hfalse => absurd rfl hfalse,
      fun _ => .of_closing hclosing⟩
  cases result with
  | data chunk ne le more ciphertext =>
    simp only [Program.meets_bind, meets_modifyTransport, meets_modifyLog, Program.meets_ite,
      Program.meets_pure]
    have hproduced := serves_produce h hguarded hopen ciphertext
    refine (meets_consume hk hproduced.native hproduced.guarded chunk).mono fun result c' hread => ?_
    have hserves := hproduced.trans hread.toServes
    split
    · exact ⟨hserves, fun hfalse => absurd rfl hfalse, hread.untouched⟩
    · next hresult =>
      have hopen' := hread.opened (by simpa using hresult)
      split
      · exact ⟨hserves, fun _ => hopen', hread.untouched⟩
      · exact ⟨hserves, fun _ => hopen', hread.untouched⟩
  | blocked ciphertext =>
    exact ⟨serves_produce h hguarded hopen ciphertext, fun _ => hopen, fun _ _ => ⟨rfl, rfl⟩⟩
  | zeroReturn ciphertext =>
    have hproduced := serves_produce h hguarded hopen ciphertext
    simp only [Program.meets_bind, meets_modifyTransport, meets_modifyLog, Program.meets_pure]
    refine Comm.Meets.mono (meets_closeDisrupted hk (by decide) hproduced.native.closeDisrupted) ?_
    rintro _ c' ⟨hleaves, hclosing⟩
    exact hended hproduced hleaves hclosing
  | failed ciphertext =>
    have hproduced := serves_produce h hguarded hopen ciphertext
    simp only [Program.meets_bind, meets_modifyTransport, meets_modifyLog, Program.meets_pure]
    refine Comm.Meets.mono (meets_fail hk hproduced.native) ?_
    rintro _ c' ⟨hleaves, hclosing⟩
    exact hended hproduced hleaves hclosing

/-- Reading what OpenSSL has, and flushing what it has produced. -/
theorem meets_processMemoryBIO (hk : k.Sound) (h : Native c) (hguarded : c.Guarded) :
    ( processMemoryBIO k c).Meets (contract Z) fun result c' => Processed c (result = true) c' := by
  have hflush : ∀ {c : Connection Z}, Native c → c.Guarded → c.transport.tls = true →
      c.transport.closing = false → (flushMemoryBIOOutput k c).Meets (contract Z) fun result c' =>
        Processed c (result = true) c' := by
    intro c h hguarded htls hopen
    refine (meets_flushMemoryBIOOutput hk h htls hopen).mono fun result c' hflushed => ?_
    refine ⟨hflushed.toKeeps.serves hguarded, ?_, fun _ => hflushed.untouched⟩
    rintro rfl
    exact hflushed.closing
  unfold processMemoryBIO
  simp only [Program.meets_bind, meets_transport, Program.meets_ite, Program.meets_pure,
    meets_modifyTransport]
  split
  · exact ⟨.refl h hguarded, fun hopen => by simpa using hopen, fun _ => .refl c⟩
  · next hready =>
    simp only [Bool.or_eq_true, Bool.not_eq_true', not_or, Bool.not_eq_false,
      Bool.not_eq_true] at hready
    obtain ⟨htls, hopen⟩ := hready
    split
    · exact hflush h hguarded htls hopen
    · set c₁ := c.mapTransport fun t => { t with tlsProcessingInput := true } with hc₁
      have hserves₁ : Serves c c₁ :=
        serves_of_native _ { h with } hguarded { Rely.refl c with } rfl rfl rfl
      have hend : ∀ {good : Prop} {c' : Connection Z}, Processed c good c' →
          Processed c good (c'.mapTransport fun t => { t with tlsProcessingInput := false }) := by
        intro good c' hread
        exact ⟨hread.toServes.trans (serves_of_native _ { hread.native with } hread.guarded
          { Rely.refl c' with } rfl rfl rfl), hread.opened, hread.untouched⟩
      refine (Program.meets_iterate (I := fun _ c' => Processed c True c')
        (P := fun result c' => Processed c (result = true) c') ?_ _
          ⟨hserves₁, fun _ => hopen, fun _ _ => ⟨rfl, rfl⟩⟩).mono ?_
      · intro _ c' hread
        refine (meets_readPlaintext hk hread.native hread.guarded (hread.opened trivial)).mono ?_
        rintro ((_ | _) | _) c'' hnext
        · exact hread.trans hnext fun hfalse => by cases hfalse
        · exact hread.trans hnext fun _ => by simp
        · exact hread.trans hnext fun _ => by simp
      · intro result c' hread
        split
        · next hresult =>
          refine (hflush hread.native hread.guarded (hread.rely.tls.trans htls)
            (hread.opened hresult)).mono fun result' c'' hnext => ?_
          exact hend (hread.trans hnext id)
        · exact hend { hread with opened := fun hfalse => by cases hfalse }

/-- The flag of a pending TLS shutdown. -/
private theorem serves_shutdownPending {c' : Connection Z} (h : Serves c c') (pending : Bool) :
    Serves c (c'.mapTransport fun t => { t with tlsShutdownPending := pending }) :=
  h.trans (serves_of_native _ { h.native with } h.guarded { Rely.refl c' with } rfl rfl rfl)

/-- A transport with no requests and no ciphertext left. -/
private theorem drained_of_sent (h : Native c) (hopen : c.transport.closing = false)
    (hempty : c.transport.queue = [])
    (hsent : c.transport.tls = true → c.transport.hasTLSOutput = false) : c.Drained := by
  refine h.drained_of_empty hopen hempty fun htls => ?_
  have houtput := hsent htls
  simp only [NativeTransport.hasTLSOutput, Bool.or_eq_false_iff, decide_eq_false_iff_not, not_lt,
    not_not] at houtput
  rw [h.cipher htls hopen h.notReporting, houtput.2, List.drop_eq_nil_of_le houtput.1,
    List.append_nil, List.append_nil]

private theorem meets_finishTLSShutdown (hk : k.Sound) {c' : Connection Z} (h : Serves c c')
    (hdrained : c'.Drained) :
    (finishTLSShutdown k c').Meets (contract Z) fun _ c'' => Serves c c'' := by
  have hpending := serves_shutdownPending h false
  unfold finishTLSShutdown
  simp only [Program.meets_bind, meets_modifyTransport]
  refine Comm.Meets.mono (meets_closeNow hk (by decide) (hpending.native.close fun _ => hdrained)) ?_
  rintro _ c'' ⟨hleaves, -⟩
  exact hpending.trans (hleaves.serves hpending.native)

/-- The last step of a TLS shutdown, which waits for the ciphertext to be sent. -/
private theorem meets_flushShutdown (hk : k.Sound) {c' : Connection Z} (h : Serves c c')
    (htls : c'.transport.tls = true) (hopen : c'.transport.closing = false)
    (hempty : c'.transport.queue = []) :
    (do
      if !(← flushMemoryBIOOutput k) then return ()
      else if (← transport).hasTLSOutput then
        modifyTransport fun t => { t with tlsShutdownPending := true }
      else finishTLSShutdown k : Run Z Unit) c' |>.Meets (contract Z) fun _ c'' => Serves c c'' := by
  simp only [Program.meets_bind, meets_transport, Program.meets_ite, Program.meets_pure,
    meets_modifyTransport]
  refine (meets_flushMemoryBIOOutput hk h.native htls hopen).mono fun result c₁ hflushed => ?_
  have hserves := h.trans (hflushed.toKeeps.serves h.guarded)
  split
  · exact hserves
  · next hresult =>
    have hopen₁ : c₁.transport.closing = false := by
      rw [hflushed.closing]
      simpa using hresult
    split
    · exact serves_shutdownPending hserves true
    · next houtput =>
      refine meets_finishTLSShutdown hk hserves (drained_of_sent hserves.native hopen₁ ?_ fun _ => ?_)
      · rw [(hflushed.untouched hopen₁).1, hempty]
      · simpa using houtput

/-- `SSL_shutdown` has produced the close-notify alert. -/
private theorem serves_shutdown (h : Native c) (hguarded : c.Guarded)
    (hunshut : c.log.shutdowns = 0) :
    Serves c ((c.mapLog fun log => { log with shutdowns := log.shutdowns + 1 }).mapTransport fun t =>
      { t with tlsShutdownGenerated := true }) := by
  refine ⟨{ h with
    shutdowns := ?_
    unshut := fun _ hfalse => by cases hfalse }, { Rely.refl c with }, .refl c, rfl, hguarded⟩
  show c.log.shutdowns + 1 ≤ 1
  rw [hunshut]

/-- The call of `SSL_shutdown` fails. -/
private theorem meets_failShutdown (hk : k.Sound) (h : Native c)
    (hunshut : c.log.shutdowns = 0) :
    (finishTLSShutdown k (c.mapLog fun log =>
      { log with shutdowns := log.shutdowns + 1, disrupted := true })).Meets (contract Z)
        fun _ c' => Serves c c' := by
  have hclosable : Closable (((c.mapLog fun log =>
      { log with shutdowns := log.shutdowns + 1, disrupted := true }).mapTransport fun t =>
        { t with tlsShutdownPending := false }).mapTransport fun t => { t with closing := true }) :=
    { h.closeDisrupted with
      shutdowns := by
        show c.log.shutdowns + 1 ≤ 1
        rw [hunshut]
      unshut := fun hopen => by cases hopen }
  unfold finishTLSShutdown
  simp only [Program.meets_bind, meets_modifyTransport]
  refine Comm.Meets.mono (meets_closeNow hk (by decide) hclosable) ?_
  rintro _ c' ⟨hleaves, -⟩
  have hrely : Rely c ((c.mapLog fun log =>
      { log with shutdowns := log.shutdowns + 1, disrupted := true }).mapTransport fun t =>
        { t with tlsShutdownPending := false }) := { Rely.refl c with }
  exact ⟨⟨hleaves.settled.toPausing, hleaves.rely.reporting.trans h.notReporting,
    hleaves.rely.active h.active⟩, hrely.trans hleaves.rely, hleaves.silent, hleaves.owed,
    hleaves.settled.guarded⟩

/-- `performTLSShutdown`. -/
theorem meets_performTLSShutdown (hk : k.Sound) (h : Native c) (hguarded : c.Guarded) :
    (performTLSShutdown k c).Meets (contract Z) fun _ c' => Serves c c' := by
  have hrefl := Serves.refl h hguarded
  unfold performTLSShutdown
  simp only [Program.meets_bind, meets_transport, Program.meets_ite, Program.meets_pure,
    meets_modifyTransport]
  split
  · exact hrefl
  · next hready =>
    simp only [Bool.or_eq_true, not_or, Bool.not_eq_true] at hready
    obtain ⟨⟨hgraceful, hopen⟩, hempty⟩ := hready
    have hempty : c.transport.queue = [] := by simpa using hempty
    have hended := h.requested (.inr (by simpa using hgraceful))
    split
    · next hplain =>
      have hdrained := drained_of_sent h hopen hempty fun htls => by simp [htls] at hplain
      refine Comm.Meets.mono (meets_closeNow hk (by decide) (h.close fun _ => hdrained)) ?_
      rintro _ c' ⟨hleaves, -⟩
      exact hleaves.serves h
    · next htls =>
      have htls : c.transport.tls = true := by simpa using htls
      split
      · have hlast := meets_flushShutdown hk hrefl htls hopen hempty
        simp only [Program.meets_bind, meets_transport, Program.meets_ite, Program.meets_pure,
          meets_modifyTransport] at hlast
        exact hlast
      · next hgenerated =>
        refine ( meets_processMemoryBIO hk h hguarded).mono fun result c₁ hread => ?_
        have hserves := hread.toServes
        split
        · exact serves_shutdownPending hserves true
        · next hresult =>
          have hopen₁ := hread.opened (by simpa using hresult)
          obtain ⟨hempty₁, hgenerated₁⟩ := hread.untouched hended hopen₁
          have hunshut : c₁.log.shutdowns = 0 := hserves.native.unshut hopen₁
            (hgenerated₁.trans (by simpa using hgenerated))
          split
          · exact serves_shutdownPending hserves true
          · refine meets_ask.mpr ⟨⟨hserves.native.toObserved, fun _ => hserves.native.uses hopen₁⟩,
              fun answer _ => ?_⟩
            have hproduced := hserves.trans
              (serves_produce hserves.native hserves.guarded hopen₁ answer.2)
            simp only [produce, Program.meets_bind, meets_modifyTransport, meets_modifyLog]
            split
            · have hshut := hproduced.trans (serves_shutdown hproduced.native hproduced.guarded hunshut)
              have hlast := meets_flushShutdown hk hshut (hserves.rely.tls.trans htls) hopen₁
                (hempty₁.trans hempty)
              simp only [Program.meets_bind, meets_transport, Program.meets_ite, Program.meets_pure,
                meets_modifyTransport] at hlast
              exact hlast
            · exact (meets_failShutdown hk hproduced.native hunshut).mono
                fun _ _ hfailed => hproduced.trans hfailed

/-- `maybeFinishPeerClose`. -/
theorem meets_maybeFinishPeerClose (hk : k.Sound) (h : PeerClosing c) :
    (maybeFinishPeerClose k c).Meets (contract Z) fun _ c' => PeerClosed c c' := by
  unfold maybeFinishPeerClose
  simp only [Program.meets_bind, meets_transport, Program.meets_ite, Program.meets_pure,
    meets_modifyTransport]
  split
  · next hclosing =>
    have hpending := h.pendingClose hclosing
    exact ⟨⟨⟨⟨h.toStable, hpending, h.severed⟩, h.told hpending⟩, h.notReporting, h.active⟩, .refl c,
      .refl c, rfl,
      fun _ _ _ => .inr hclosing⟩
  · split
    · next hpending =>
      have htelling : Telling (c.mapTransport fun t => { t with pendingClose := false }) :=
        ⟨{ h.toStable with
            requested := fun _ => h.requested (.inl hpending) }, rfl, h.severed⟩
      have hrely : Rely c (c.mapTransport fun t => { t with pendingClose := false }) :=
        { Rely.refl c with }
      refine (hk.owner_ends (.close _ _) rfl htelling h.active).mono ?_
      rintro returned c₁ ⟨hleaves, hending, hdeadline⟩
      have hnative₁ : Native c₁ := ⟨hleaves.settled.toPausing,
        hleaves.rely.reporting.trans h.notReporting, hleaves.rely.active h.active⟩
      split
      · have hnative₂ : Native (c₁.mapTransport fun t => { t with gracefulCloseRequested := true }) :=
          { hnative₁ with
            requested := fun _ => hleaves.rely.sessionClosing (h.requested (.inl hpending))
            graceful := fun _ _ => hending
            deadline := fun _ hopen => hdeadline rfl hopen }
        refine (meets_performTLSShutdown hk hnative₂ hleaves.settled.guarded).mono ?_
        intro _ c₂ hserves
        have hrely₂ : Rely c₁ (c₁.mapTransport fun t => { t with gracefulCloseRequested := true }) :=
          { Rely.refl c₁ with }
        exact ⟨hserves.native, (hrely.trans (hleaves.rely.trans hrely₂)).trans hserves.rely,
          hleaves.silent.trans hserves.silent, hleaves.owed.trans hserves.owed,
          fun _ => hserves.guarded⟩
      · exact ⟨hnative₁, hrely.trans hleaves.rely, hleaves.silent, hleaves.owed,
          fun _ => hleaves.settled.guarded⟩
    · next hpending =>
      have hpending : c.transport.pendingClose = false := by simpa using hpending
      have hnative : Native c :=
        ⟨⟨⟨h.toStable, hpending, h.severed⟩, h.told hpending⟩, h.notReporting, h.active⟩
      split
      · next hgraceful =>
        have hguarded : c.Guarded := by
          intro honTime _
          left
          rcases h.graceful honTime hgraceful with hstate | hstate <;> rw [hstate] <;> decide
        refine (meets_performTLSShutdown hk hnative hguarded).mono fun _ c' hserves => ?_
        exact ⟨hserves.native, hserves.rely, hserves.silent, hserves.owed, fun _ => hserves.guarded⟩
      · refine ⟨hnative, .refl c, .refl c, rfl, ?_⟩
        rintro (hguarded | htrue)
        · exact hguarded
        · exact absurd (htrue.symm.trans hpending) (by decide)

private theorem meets_readTCP (hk : k.Sound) (h : Native c) (hguarded : c.Guarded)
    (hopen : c.transport.closing = false) :
    (readTCP k c).Meets (contract Z) fun _ c' => Serves c c' := by
  unfold readTCP
  simp only [Program.meets_bind]
  refine meets_ask.mpr ⟨⟨h.toObserved, fun _ => h.uses hopen⟩, fun result _ => ?_⟩
  cases result with
  | data chunk ne le =>
    simp only [Program.meets_bind, Program.meets_pure]
    exact (meets_consume hk h hguarded chunk).mono fun _ _ hserves => hserves.1
  | eof =>
    refine Comm.Meets.mono (meets_closeDisrupted hk (by decide) h.closeDisrupted) ?_
    exact fun _ _ hleaves => hleaves.1.serves h
  | wouldBlock => exact .refl h hguarded
  | failed => exact (meets_fail hk h).mono fun _ _ hleaves => hleaves.1.serves h

private theorem meets_readTLSMemoryBIO (hk : k.Sound) (h : Native c) (hguarded : c.Guarded) :
    ( readTLSMemoryBIO k c).Meets (contract Z) fun _ c' => Serves c c' := by
  have hprocess := ( meets_processMemoryBIO hk h hguarded).mono
    fun (_ : Bool) _ hserves => hserves.1
  unfold readTLSMemoryBIO
  simp only [Program.meets_bind, meets_transport, Program.meets_ite, Program.meets_pure]
  split
  · exact .refl h hguarded
  · next hopen =>
    have huses := h.uses (Bool.eq_false_of_not_eq_true hopen)
    refine meets_ask.mpr ⟨⟨h.toObserved, fun _ => huses⟩, fun result _ => ?_⟩
    cases result with
    | data chunk ne le =>
      simp only [Program.meets_bind, Program.meets_ite, Program.meets_pure]
      refine meets_ask.mpr ⟨⟨h.toObserved, fun _ => huses⟩, fun written _ => ?_⟩
      split
      · exact hprocess
      · exact (meets_fail hk h).mono fun _ _ hleaves => hleaves.1.serves h
    | eof =>
      refine Comm.Meets.mono (meets_closeDisrupted hk (by decide) h.closeDisrupted) ?_
      exact fun _ _ hleaves => hleaves.1.serves h
    | wouldBlock => exact Program.meets_bind.mpr hprocess
    | failed => exact (meets_fail hk h).mono fun _ _ hleaves => hleaves.1.serves h

private theorem meets_flushWrites_serves (hk : k.Sound) {c' : Connection Z} (h : Serves c c') :
    (flushWrites k c').Meets (contract Z) fun _ c'' => Serves c c'' :=
  (meets_flushWrites hk h.native (.inl h.guarded)).mono fun _ _ hkeeps =>
    h.trans (hkeeps.serves h.guarded)

private theorem meets_performTLSShutdown_serves (hk : k.Sound) {c' : Connection Z}
    (h : Serves c c') : (performTLSShutdown k c').Meets (contract Z) fun _ c'' => Serves c c'' :=
  (meets_performTLSShutdown hk h.native h.guarded).mono fun _ _ hserves => h.trans hserves

private theorem meets_pollReadable (hk : k.Sound) (h : Native c) (hguarded : c.Guarded)
    (hopen : c.transport.closing = false) :
    (pollReadable k c).Meets (contract Z) fun _ c' => Serves c c' := by
  have hserves : Serves c (c.mapTransport fun t => { t with tlsWriteBlockedOnRead := false }) :=
    serves_of_native _ { h with } hguarded { Rely.refl c with } rfl rfl rfl
  have hflush : ∀ {c' : Connection Z} (p : Bool), Serves c c' →
      if (!c'.transport.closing && p) = true then
        (flushWrites k c').Meets (contract Z) fun _ c'' => Serves c c''
      else Serves c c' := by
    intro c' p hserves
    split
    · exact meets_flushWrites_serves hk hserves
    · exact hserves
  unfold pollReadable
  simp only [Program.meets_bind, meets_transport, Program.meets_ite, Program.meets_pure,
    meets_modifyTransport]
  split
  · refine ( meets_readTLSMemoryBIO hk hserves.native hserves.guarded).mono fun _ c' hread => ?_
    exact hflush _ (hserves.trans hread)
  · refine (meets_readTCP hk hserves.native hserves.guarded hopen).mono fun _ c' hread => ?_
    exact hflush _ (hserves.trans hread)

private theorem meets_pollWritable (hk : k.Sound) (h : Native c) (hguarded : c.Guarded) :
    (pollWritable k c).Meets (contract Z) fun _ c' => Serves c c' := by
  have hinput : ∀ {c' : Connection Z}, Serves c c' →
      (processInput k c').Meets (contract Z) fun _ c'' => Serves c c'' := by
    intro c' hserves
    unfold processInput
    simp only [Program.meets_bind, meets_transport, Program.meets_ite, Program.meets_pure]
    split
    · refine ( meets_processMemoryBIO hk hserves.native hserves.guarded).mono ?_
      exact fun _ _ hnext => hserves.trans hnext.1
    · exact hserves
  have hflush : ∀ {c' : Connection Z}, Serves c c' →
      (flushUnlessClosing k c').Meets (contract Z) fun _ c'' => Serves c c'' := by
    intro c' hserves
    unfold flushUnlessClosing
    simp only [Program.meets_bind, meets_transport, Program.meets_ite, Program.meets_pure]
    split
    · exact meets_flushWrites_serves hk hserves
    · exact hserves
  have hshutdown : ∀ {c' : Connection Z}, Serves c c' →
      (continueTLSShutdown k c').Meets (contract Z) fun _ c'' => Serves c c'' := by
    intro c' hserves
    unfold continueTLSShutdown
    simp only [Program.meets_bind, meets_transport, Program.meets_ite, Program.meets_pure]
    split
    · exact meets_performTLSShutdown_serves hk hserves
    · exact hserves
  have hrest : ∀ {c' : Connection Z}, Serves c c' →
      if c'.transport.closing = true then Serves c c'
      else ((processInput k >>= fun _ => flushUnlessClosing k >>= fun _ => continueTLSShutdown k)
        c').Meets (contract Z) fun _ c'' => Serves c c'' := by
    intro c' hserves
    split
    · exact hserves
    · simp only [Program.meets_bind]
      refine (hinput hserves).mono fun _ c₁ hserves₁ => ?_
      exact (hflush hserves₁).mono fun _ c₂ hserves₂ => hshutdown hserves₂
  unfold pollWritable
  simp only [Program.meets_bind, meets_transport, Program.meets_ite, Program.meets_pure]
  simp only [Program.meets_bind] at hrest
  split
  · exact (meets_performTLSShutdown hk h hguarded).mono fun _ _ hserves => hrest hserves
  · exact hrest (.refl h hguarded)

/-- `poll`. -/
theorem meets_poll (hk : k.Sound) (h : Native c) (hguarded : c.Guarded)
    (ok readable writable : Bool) :
    (poll k ok readable writable c).Meets (contract Z) fun _ c' => Serves c c' := by
  have hupdate : ∀ {c' : Connection Z}, Serves c c' →
      if (!c'.transport.closing) = true then
        (updatePoll k c').Meets (contract Z) fun _ c'' => Serves c c''
      else Serves c c' := by
    intro c' hserves
    split
    · refine (meets_updatePoll hk hserves.native).mono fun _ c'' hkeeps => ?_
      exact hserves.trans (hkeeps.1.serves hserves.guarded)
    · exact hserves
  have hwrite : ∀ {c' : Connection Z}, Serves c c' →
      if (!c'.transport.closing && writable) = true then
        (pollWritable k c').Meets (contract Z) fun _ c₁ =>
          if (!c₁.transport.closing) = true then
            (updatePoll k c₁).Meets (contract Z) fun _ c'' => Serves c c''
          else Serves c c₁
      else if (!c'.transport.closing) = true then
        (updatePoll k c').Meets (contract Z) fun _ c'' => Serves c c''
      else Serves c c' := by
    intro c' hserves
    split
    · refine (meets_pollWritable hk hserves.native hserves.guarded).mono fun _ c'' hnext => ?_
      exact hupdate (hserves.trans hnext)
    · exact hupdate hserves
  unfold poll
  simp only [Program.meets_bind, meets_transport, Program.meets_ite, Program.meets_pure]
  split
  · exact .refl h hguarded
  · next hopen =>
    split
    · exact (meets_fail hk h).mono fun _ _ hleaves => hleaves.1.serves h
    · split
      · exact (meets_pollReadable hk h hguarded (Bool.eq_false_of_not_eq_true hopen)).mono fun _ _ hserves => hwrite hserves
      · exact hwrite (.refl h hguarded)

/-- The end of the destructor. -/
private theorem leaves_destroyed {c' : Connection Z} (h : Leaves none c c')
    (hempty : c'.transport.queue = [])
    (hunused : c'.transport.closing = true ∨
      (c'.transport.active = false ∧ c'.transport.sessionAttached = false)) :
    Leaves none c (c'.mapTransport fun t => { t with destroyed := true, descriptorOpen := false }) := by
  have hstable : Stable (c'.mapTransport fun t =>
      { t with destroyed := true, descriptorOpen := false }) :=
    { h.settled.toStable with
      deleted := fun _ => rfl
      finished := fun _ => hempty
      usable := by
        rintro hopen (hactive | hattached)
        · rcases hunused with hclosing | ⟨hinactive, -⟩
          · exact absurd (hclosing.symm.trans hopen) (by decide)
          · exact absurd (hinactive.symm.trans hactive) (by decide)
        · rcases hunused with hclosing | ⟨-, hdetached⟩
          · exact absurd (hclosing.symm.trans hopen) (by decide)
          · exact absurd (hdetached.symm.trans hattached) (by decide) }
  refine ⟨⟨⟨⟨hstable, h.settled.pendingClose, h.settled.severed⟩, h.settled.told⟩, h.settled.reporting,
    h.settled.guarded⟩, ?_, h.silent, h.owed⟩
  exact { h.rely with finished := fun _ hopen => by cases hopen }

/-- Deleting the transport gives its requests up. -/
theorem meets_destroy (hk : k.Sound) (h : Settled c) (hclosing : c.transport.closing = true) :
    (destroy k c).Meets (contract Z) fun _ c' => Leaves none c c' := by
  unfold destroy
  simp only [Program.meets_bind, meets_modifyTransport]
  refine Comm.Meets.mono (meets_cancelWrites hk (by decide) h (.inl hclosing)) ?_
  rintro _ c' ⟨hleaves, hempty⟩
  exact leaves_destroyed hleaves hempty (.inl (hleaves.rely.closing hclosing))

/-- Deleting a transport that has never been used. -/
theorem meets_destroy_unused (h : Settled c) (hempty : c.transport.queue = [])
    (hinactive : c.transport.active = false) (hdetached : c.transport.sessionAttached = false) :
    (destroy k c).Meets (contract Z) fun _ c' => Leaves none c c' := by
  unfold destroy
  simp only [Program.meets_bind, meets_modifyTransport]
  exact meets_cancelWrites_nil hempty (leaves_destroyed (.refl h) hempty
    (.inr ⟨hinactive, hdetached⟩))

/-- The owner gives the transport up. -/
theorem meets_requestDestroy (hk : k.Sound) (h : Closable c) (htold : c.Told) (hending : c.Ending)
    (hnative : c.webSocket.nativeTransport = true) :
    (requestDestroy k c).Meets (contract Z) fun _ c' => Leaves none c c' := by
  set c₁ := c.mapTransport fun t => { t with destroyRequested := true, sessionAttached := false }
    with hc₁
  have hclosable : Closable c₁ := ⟨{ h.toStable with
    usable := fun hopen hused => h.usable hopen (.inl (hused.resolve_right Bool.false_ne_true)) },
    h.pendingClose, h.reporting⟩
  have hrely : Rely c c₁ := { Rely.refl c with }
  have hafter : ∀ {c' : Connection Z}, Leaves none c₁ c' → Leaves none c c' := fun hleaves =>
    ⟨hleaves.settled, hrely.trans hleaves.rely, hleaves.silent, hleaves.owed⟩
  unfold requestDestroy
  simp only [Program.meets_bind, meets_transport, Program.meets_ite, Program.meets_pure,
    meets_modifyTransport]
  split
  · next hinactive =>
    have hinactive : c.transport.active = false := by simpa using hinactive
    have hquiet := h.unused hinactive
    have hpausing : Pausing c₁ := ⟨⟨hclosable.toStable, hclosable.pendingClose, fun hactive =>
      absurd (hactive.symm.trans hinactive) (by decide)⟩, htold⟩
    refine (meets_destroy_unused (hpausing.settled hending) hquiet hinactive rfl).mono ?_
    exact fun _ c' hleaves => hafter hleaves
  · refine (meets_terminate hk hclosable hnative).mono ?_
    rintro _ c' ⟨hleaves, hclosing⟩
    split
    · refine (meets_destroy hk hleaves.settled hclosing).mono ?_
      exact fun _ c'' hleaves' => hafter (hleaves.trans hleaves')
    · exact hafter hleaves

/-- The callback of `uv_close`. -/
theorem meets_onPollClosed (hk : k.Sound) (h : Settled c)
    (hclosing : c.transport.closing = true) :
    (onPollClosed k c).Meets (contract Z) fun _ c' => Leaves none c c' := by
  set c₁ := c.mapTransport fun t =>
    { t with pollClosing := false, pollClosed := true, insideCloseCallback := true } with hc₁
  have hsettled : Settled c₁ := { h with polled := fun hpolled => by cases hpolled }
  have hrely : Rely c c₁ := { Rely.refl c with }
  unfold onPollClosed
  simp only [Program.meets_bind, meets_transport, Program.meets_ite, Program.meets_pure,
    meets_modifyTransport]
  refine (hk.owner .closed rfl hsettled trivial).mono fun _ c₂ hleaves => ?_
  set c₃ := c₂.mapTransport fun t => { t with insideCloseCallback := false } with hc₃
  have hrely₃ : Rely c₂ c₃ := { Rely.refl c₂ with }
  have hleaves₃ : Leaves none c c₃ := ⟨{ hleaves.settled with },
    hrely.trans (hleaves.rely.trans hrely₃), hleaves.silent, hleaves.owed⟩
  split
  · refine (meets_destroy hk hleaves₃.settled (hleaves.rely.closing hclosing)).mono ?_
    exact fun _ c' hleaves' => hleaves₃.trans hleaves'
  · exact hleaves₃

/-- The transport starts to work. -/
theorem meets_activate (hk : k.Sound) (h : Settled c)
    (hattached : c.transport.sessionAttached = true) (hclosed : c.webSocket.closed = false)
    (hreporting : c.transport.reportingError = false)
    (hnative : c.webSocket.nativeTransport = true) :
    (activate k c).Meets (contract Z) fun status c' => Leaves none c c' ∧
      (0 ≤ status → c'.transport.closing = false ∧ c'.transport.active = true) := by
  have hrefused : ∀ {P : Prop}, (0 : ℤ) ≤ UV_EINVAL → P := fun hle => absurd hle (by decide)
  unfold activate
  simp only [Program.meets_bind, meets_transport, Program.meets_ite, Program.meets_pure,
    meets_modifyTransport]
  split
  · exact ⟨.refl h, hrefused⟩
  · next hready =>
    have hopen : c.transport.closing = false := by
      simp only [Bool.or_eq_true, not_or, Bool.not_eq_true] at hready
      exact hready.2
    have hfd := h.toStable.usable hopen (.inr hattached)
    refine meets_ask.mpr ⟨⟨h.toObserved, fun _ => ⟨hopen, hfd⟩⟩, fun initialized _ => ?_⟩
    split
    · exact ⟨.refl h, hrefused⟩
    · set c₁ := c.mapTransport fun t => { t with pollInitialized := true, active := true } with hc₁
      have hsevered : c₁.Severed := by
        rintro - (hdetached | ⟨hover, -⟩)
        · exact absurd (hdetached.symm.trans hattached) (by decide)
        · exact absurd (hover.symm.trans hclosed) (by decide)
      have hnative₁ : Native c₁ :=
        { h.toStable with
          usable := fun _ _ => hfd
          unused := fun hinactive => by cases hinactive
          quiet := fun _ hinactive => by cases hinactive
          driven := fun _ => hnative
          pendingClose := h.pendingClose
          severed := hsevered
          told := h.told
          notReporting := hreporting
          active := rfl }
      have hrely : Rely c c₁ := { Rely.refl c with active := fun _ => rfl }
      have hafter : ∀ {c' : Connection Z}, Serves c₁ c' → Leaves none c c' := fun hserves =>
        ⟨hserves.settled, hrely.trans hserves.rely, hserves.silent, hserves.owed⟩
      have hstart : ∀ {c' : Connection Z}, Serves c₁ c' →
          (flushWrites k c').Meets (contract Z) fun _ c₂ =>
            (updatePoll k c₂).Meets (contract Z) fun _ c₃ =>
              if c₃.transport.closing = true then
                Leaves none c c₃ ∧ (0 ≤ UV_EIO → c₃.transport.closing = false ∧
                  c₃.transport.active = true)
              else Leaves none c c₃ ∧ ((0 : ℤ) ≤ 0 → c₃.transport.closing = false ∧
                c₃.transport.active = true) := by
        intro c' hserves
        refine (meets_flushWrites_serves hk hserves).mono fun _ c₂ hserves₂ => ?_
        refine (meets_updatePoll hk hserves₂.native).mono fun _ c₃ hkeeps => ?_
        have hserves₃ := hserves₂.trans (hkeeps.1.serves hserves₂.guarded)
        split
        · exact ⟨hafter hserves₃, fun hle => absurd hle (by decide)⟩
        · next hopen => exact ⟨hafter hserves₃, fun _ => ⟨by simpa using hopen,
            hserves₃.native.active⟩⟩
      have hguarded₁ : c₁.Guarded := h.guarded
      split
      · refine ( meets_processMemoryBIO hk hnative₁ hguarded₁).mono fun result c' hserves => ?_
        split
        · exact ⟨hafter hserves.1, fun hle => absurd hle (by decide)⟩
        · exact hstart hserves.1
      · rw [if_neg (by decide)]
        exact hstart (.refl hnative₁ hguarded₁)

/-- Bytes that were read before the transport was activated. -/
theorem meets_feed (hk : k.Sound) (h : Native c) (hguarded : c.Guarded) (data : Bytes) :
    (feed k data c).Meets (contract Z) fun _ c' => Serves c c' := by
  unfold feed
  simp only [Program.meets_bind, meets_transport, Program.meets_ite, Program.meets_pure]
  split
  · exact .refl h hguarded
  · exact (meets_consume hk h hguarded data).mono fun _ _ hserves => hserves.1

end NativeTransport

end Eiows
