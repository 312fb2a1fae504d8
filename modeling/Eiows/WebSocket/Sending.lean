import Eiows.WebSocket.Closing

/-!
# Sending through the WebSocket

Who owes the callback of a `send`: the native transport once a write is asynchronous,
the Node socket once it has the last part, and `WebSocket` itself in all other cases.
A frame enters the record only in a state that admits it.
-/

namespace Eiows

open Interaction NativeTransport

variable {Z : Zlib} {k : Callees Z} {c : Connection Z} {callback : Option WriteCallback}
  {outer : List WriteCallback}

/-- What a method leaves that has passed its callback on. -/
structure Settles (outer : List WriteCallback) (c c' : Connection Z) : Prop where
  settled : Settled c'
  rely : Rely c c'
  silent : Silent c c'
  owed : c'.log.owed = outer

/-- The callback is owed to the application, or has been scheduled before a listener threw. -/
def Owes (callback : Option WriteCallback) (outer : List WriteCallback) (c : Connection Z) : Prop :=
  c.log.owed = callback.toList ++ outer ∨
    c.log.owed = outer ∧ ∀ b, callback = some b → b ∉ outer ∧ c.log.misreported = true

/-- What a native write leaves with its result. -/
structure Written (callback : Option WriteCallback) (outer : List WriteCallback) (c : Connection Z)
    (result : NativeResult) (c' : Connection Z) : Prop where
  native : Native c'
  rely : Rely c c'
  silent : Silent c c'
  guarded : c'.Guarded
  status_le : ∀ status, result = .status status → status ≤ WRITE_ASYNCHRONOUS
  asynchronous : result = .status WRITE_ASYNCHRONOUS → c'.log.owed = outer
  otherwise : result ≠ .status WRITE_ASYNCHRONOUS → c'.log.owed = c.log.owed
  synchronous : result = .status WRITE_SYNCHRONOUS → ∀ b, callback = some b → c'.log.Paid b

theorem Leaves.settles {c' : Connection Z} (h : Leaves none c c') (howed : c.log.owed = outer) :
    Settles outer c c' :=
  ⟨h.settled, h.rely, h.silent, h.owed.symm.trans howed⟩

theorem Settles.leaves {c' : Connection Z} (h : Settles outer c c') (howed : c.log.owed = outer) :
    Leaves none c c' :=
  ⟨h.settled, h.rely, h.silent, howed.trans h.owed.symm⟩

theorem Settles.trans {c' c'' : Connection Z} {outer' : List WriteCallback} (h : Settles outer c c')
    (h' : Settles outer' c' c'') : Settles outer' c c'' :=
  ⟨h'.settled, h.rely.trans h'.rely, h.silent.trans h'.silent, h'.owed⟩

theorem Settles.andThen {c' c'' : Connection Z} (h : Settles outer c c') (h' : Leaves none c' c'') :
    Settles outer c c'' :=
  h.trans (h'.settles h.owed)

/-- A callback that is called or scheduled is not owed any more. -/
theorem Settled.schedule (h : Settled c) (howes : Owes callback outer c) {ok : Bool}
    (hpaid : ok = true → ∀ b, callback = some b → c.log.Paid b) :
    Settles outer c (c.mapLog fun log => (log.fire callback ok).settle callback) := by
  cases callback with
  | none =>
    have hsame : (c.mapLog fun log => (log.fire none ok).settle none) = c := by
      simp [Connection.mapLog, Log.fire, Log.settle]
    have howed : c.log.owed = outer := by
      rcases howes with howed | ⟨howed, -⟩
      · exact howed
      · exact howed
    rw [hsame]
    exact ⟨h, .refl c, .refl c, howed⟩
  | some b =>
    have herase : c.log.owed.erase b = outer := by
      rcases howes with howed | ⟨howed, hmis⟩
      · rw [howed]
        exact List.erase_cons_head b outer
      · rw [howed]
        exact List.erase_of_not_mem (hmis b rfl).1
    have hafter : (c.mapLog fun log => (log.fire (some b) ok).settle (some b)) =
        c.mapLog fun log => { log with fired := log.fired ++ [(b, ok)], owed := outer } := by
      simp [Connection.mapLog, Log.fire, Log.settle, herase]
    have hsub : ∀ b' ∈ outer, b' ∈ c.log.owed := by
      intro b' hmem
      rw [← herase] at hmem
      exact List.mem_of_mem_erase hmem
    rw [hafter]
    refine ⟨{ h with
      charged := ?_
      paid := ?_
      fresh := fun b' hmem => h.fresh b' (hsub b' hmem)
      nodup := ?_ }, { Rely.refl c with fired := List.prefix_append _ _ },
      fun hsent => ⟨hsent, id⟩, rfl⟩
    · intro hreported b'
      have howed : c.log.owed = b :: outer := by
        rcases howes with howed | ⟨-, hmis⟩
        · exact howed
        · exact absurd ((hmis b rfl).2.symm.trans hreported) (by decide)
      have hcharge := h.charged hreported b'
      unfold Connection.charges at hcharge ⊢
      rw [howed, List.count_cons] at hcharge
      have hfired : ((c.log.fired ++ [(b, ok)]).map (·.1)).count b' =
          (c.log.fired.map (·.1)).count b' + if b == b' then 1 else 0 := by
        simp [List.count_singleton]
      show ((c.log.fired ++ [(b, ok)]).map (·.1)).count b' + outer.count b' +
        (deferredCallbacks c.transport.queue).count b' + c.socket.callbacks.count b' =
          if b' < c.log.callbacks then 1 else 0
      omega
    · intro b' hfired
      rcases List.mem_append.mp hfired with hold | hnew
      · exact h.paid b' hold
      · obtain ⟨rfl, rfl⟩ := Prod.mk.inj (List.mem_singleton.mp hnew)
        exact hpaid rfl b' rfl
    · rw [← herase]
      exact h.nodup.erase b

/-- The session may change as long as it does not reopen. -/
structure SessionAdvances (c : Connection Z) (session : StreamWebSocket Z) : Prop where
  closing : c.session.session.closing = true → session.session.closing = true
  closeSent : c.session.session.closeSent = true → session.session.closeSent = true

theorem Stable.withSession (h : Stable c) {session : StreamWebSocket Z}
    (hsession : SessionAdvances c session) : Stable { c with session } :=
  { h with
    closeSent := fun hqueued => hsession.closeSent (h.closeSent hqueued)
    requested := fun hrequested => hsession.closing (h.requested hrequested) }

theorem Connection.rely_withSession {session : StreamWebSocket Z}
    (hsession : SessionAdvances c session) : Rely c { c with session } :=
  { Rely.refl c with sessionClosing := hsession.closing }

theorem Connection.silent_withSession {session : StreamWebSocket Z}
    (hsession : SessionAdvances c session) : Silent c { c with session } :=
  fun hsent => ⟨hsession.closeSent hsent, id⟩

theorem Native.withSession (h : Native c) {session : StreamWebSocket Z}
    (hsession : SessionAdvances c session) : Native { c with session } :=
  { h with toStable := h.toStable.withSession hsession }

theorem Settled.withSession (h : Settled c) {session : StreamWebSocket Z}
    (hsession : SessionAdvances c session) : Leaves none c { c with session } :=
  ⟨{ h with toStable := h.toStable.withSession hsession }, c.rely_withSession hsession,
    c.silent_withSession hsession, rfl⟩

theorem Connection.createFrame_advances (c : Connection Z) (data : Bytes) (opCode : OpCode)
    (compress : Bool) : SessionAdvances c (c.session.createFrame data opCode compress).2 := by
  obtain ⟨hclosing, hsent⟩ := StreamWebSocket.createFrame_flags data opCode compress c.session
  exact ⟨hclosing.trans, hsent.trans⟩

/-- Frames of this kind are no Close frames, and admitted at this time. -/
structure Permits (kind : Outgoing) (c : Connection Z) : Prop where
  close : ∀ data, isCloseFrame (kind, data) = false
  data : c.log.openedLate = false → c.CloseQueued → ∀ data, isDataFrame (kind, data) = false

theorem Permits.admissible {kind : Outgoing} (h : Permits kind c) (data : Bytes) :
    Admissible c (kind, data) :=
  ⟨fun honTime hqueued => ⟨h.close data, h.data honTime hqueued data⟩,
    fun hclose => absurd ((h.close data).symm.trans hclose) (by decide)⟩

/-- Data frames are admitted while the connection is open. -/
theorem Connection.Guarded.permits {kind : Outgoing} (h : c.Guarded)
    (hclose : ∀ data, isCloseFrame (kind, data) = false)
    (hopen : c.webSocket.readyState = .opened) (hworks : c.transport.closing = false) :
    Permits kind c := by
  refine ⟨hclose, fun honTime hqueued => ?_⟩
  rcases h honTime hqueued with hstate | hclosing
  · exact absurd hopen hstate
  · exact absurd (hclosing.symm.trans hworks) (by decide)

theorem Submitted.written {c' : Connection Z} {kind : Outgoing} {content : Bytes}
    {result : NativeResult} (h : Submitted c kind content callback outer result c')
    (hclose : isCloseFrame (kind, content) = false) (hguarded : c.Guarded) :
    Written callback outer c result c' :=
  ⟨h.native, h.rely, h.silent hclose,
    h.guarded hguarded fun hc => absurd (hclose.symm.trans hc) (by decide), h.status_le,
    h.asynchronous, h.otherwise, h.synchronous⟩

theorem Written.refused (h : Native c) (hguarded : c.Guarded) {result : NativeResult}
    (hresult : result = .threw ∨ ∃ status < 0, result = .status status) :
    Written callback outer c result c :=
  (Submitted.refused h .response [] callback outer hresult).written rfl hguarded

/-- What a write leaves that follows a step of the session. -/
theorem Written.after {c₁ c' : Connection Z} {result : NativeResult}
    (h : Written callback outer c₁ result c') (hrely : Rely c c₁) (hsilent : Silent c c₁)
    (howed : c₁.log.owed = c.log.owed) : Written callback outer c result c' :=
  ⟨h.native, hrely.trans h.rely, hsilent.trans h.silent, h.guarded, h.status_le, h.asynchronous,
    fun hother => (h.otherwise hother).trans howed, h.synchronous⟩

theorem WriteRequest.addSmallTextFrame_fields (payload : Bytes) (opCode : OpCode)
    (r : WriteRequest) : (r.addSmallTextFrame payload opCode).1.sent = r.sent ∧
      (r.addSmallTextFrame payload opCode).1.deferred = r.deferred ∧
        (r.addSmallTextFrame payload opCode).1.callback = r.callback := by
  unfold addSmallTextFrame
  dsimp only
  split_ifs <;> exact ⟨rfl, rfl, rfl⟩

namespace NativeTransport

theorem closing_of_writable {t : NativeTransport} (h : t.writable = true) : t.closing = false := by
  simp only [writable, Bool.and_eq_true, Bool.not_eq_true'] at h
  exact h.1.1

/-- A submission of a kind that is admitted. -/
theorem meets_submit_written (hk : k.Sound) (h : Native c) (hguarded : c.Guarded) {kind : Outgoing}
    {r : WriteRequest} (hpermits : Permits kind c) (hsent : r.sent = 0) (hwaits : r.deferred = false)
    (hcallback : r.callback = callback) (howed : c.log.owed = callback.toList ++ outer) :
    (submit k kind r c).Meets (contract Z) fun result c' => Written callback outer c result c' := by
  subst hcallback
  exact (meets_submit hk h kind hsent hwaits outer howed (hpermits.admissible _)).mono
    fun _ _ hsubmitted => hsubmitted.written (hpermits.close _) hguarded

/-- `writeFrame`. -/
theorem meets_writeFrame (hk : k.Sound) (h : Native c) (hguarded : c.Guarded) (frame : Bytes)
    (howed : c.log.owed = callback.toList ++ outer)
    (hpermits : c.transport.closing = false → Permits .frameList c) :
    (writeFrame k frame callback c).Meets (contract Z) fun result c' =>
      Written callback outer c result c' := by
  unfold writeFrame
  simp only [Program.meets_bind, meets_transport, Program.meets_ite, Program.meets_pure]
  split
  · exact .refused h hguarded (.inr ⟨_, by decide, rfl⟩)
  · next hwritable =>
    have hopen := closing_of_writable (by simpa using hwritable)
    exact meets_submit_written (r := { parts := [frame], callback }) hk h hguarded (hpermits hopen)
      rfl rfl rfl howed

/-- `writeFrameList`. -/
theorem meets_writeFrameList (hk : k.Sound) (h : Native c) (hguarded : c.Guarded) (kind : Outgoing)
    (list : List (Option Bytes)) (howed : c.log.owed = callback.toList ++ outer)
    (hpermits : c.transport.closing = false → Permits kind c) :
    (writeFrameList k kind list callback c).Meets (contract Z) fun result c' =>
      Written callback outer c result c' := by
  unfold writeFrameList
  simp only [Program.meets_bind, meets_transport, Program.meets_ite, Program.meets_pure]
  split
  · exact .refused h hguarded (.inr ⟨_, by decide, rfl⟩)
  · next hwritable =>
    have hopen := closing_of_writable (by simpa using hwritable)
    split
    · exact .refused h hguarded (.inl rfl)
    · split
      · exact .refused h hguarded (.inl rfl)
      · exact meets_submit_written (r := { parts := list.filterMap id, callback }) hk h hguarded
          (hpermits hopen) rfl rfl rfl howed

/-- `writeMessage`, with the session's own frame where it compresses. -/
theorem meets_writeMessage (hk : k.Sound) (h : Native c) (hguarded : c.Guarded) (input : Bytes)
    (opCode : OpCode) (compress : Bool) (howed : c.log.owed = callback.toList ++ outer)
    (hpermits : c.transport.closing = false → Permits (.message opCode) c) :
    (writeMessage k input opCode compress callback c).Meets (contract Z) fun result c' =>
      Written callback outer c result c' := by
  unfold writeMessage
  simp only [Program.meets_bind, Program.meets_get, Program.meets_ite, Program.meets_pure]
  split
  · exact .refused h hguarded (.inr ⟨_, by decide, rfl⟩)
  · next hwritable =>
    have hpermits := hpermits (closing_of_writable (by simpa using hwritable))
    split
    · have hsession := c.createFrame_advances input opCode true
      have hnative := h.withSession hsession
      have hrely := c.rely_withSession hsession
      have hsilent := c.silent_withSession hsession
      cases hframe : c.session.createFrame input opCode true with
      | mk frame session =>
        rw [hframe] at hnative hrely hsilent
        cases frame with
        | none =>
          simp only [Program.meets_bind, Program.meets_modify, Program.meets_pure]
          exact (Written.refused hnative hguarded (.inl rfl)).after hrely hsilent rfl
        | some frame =>
          simp only [Program.meets_bind, Program.meets_modify]
          refine (meets_submit_written (r := WriteRequest.addPart frame { callback }) hk hnative
            hguarded ⟨hpermits.close, hpermits.data⟩ rfl rfl rfl howed).mono ?_
          exact fun _ _ hwritten => hwritten.after hrely hsilent rfl
    · split
      · obtain ⟨hsent, hwaits, hcallback⟩ := WriteRequest.addSmallTextFrame_fields input opCode
          ({ callback } : WriteRequest)
        cases hsmall : WriteRequest.addSmallTextFrame input opCode { callback } with
        | mk request whole =>
          rw [hsmall] at hsent hwaits hcallback
          cases whole with
          | true => exact meets_submit_written hk h hguarded hpermits hsent hwaits hcallback howed
          | false =>
            exact meets_submit_written (r := request.prependOwned (frameHeader input.length opCode))
              hk h hguarded hpermits hsent hwaits hcallback howed
      · exact meets_submit_written (r := (WriteRequest.addPart input { callback }).prependOwned
          (frameHeader input.length opCode)) hk h hguarded hpermits rfl rfl rfl howed

/-- `writeClose`. Nothing else has sent the Close frame before. -/
theorem meets_writeClose (hk : k.Sound) (h : Native c) (hguarded : c.Guarded) (hending : c.Ending)
    (code : ℕ) (reason : Bytes) :
    (writeClose k code reason c).Meets (contract Z) fun _ c' => Serves c c' := by
  unfold writeClose writeOwned
  simp only [Program.meets_bind, Program.meets_get, Program.meets_ite, Program.meets_pure]
  split
  · exact .refl h hguarded
  · by_cases hended : c.session.session.closing = true ∨ c.session.session.closeSent = true
    · rw [StreamWebSocket.createCloseFrame_refused hended]
      exact .refl h hguarded
    · rw [StreamWebSocket.createCloseFrame, if_neg hended]
      simp only [not_or, Bool.not_eq_true] at hended
      set session : StreamWebSocket Z :=
        { c.session with session := { c.session.session with closeSent := true } } with hsession
      have hadvances : SessionAdvances c session := ⟨id, fun _ => rfl⟩
      have hnone : ¬c.CloseQueued := fun hqueued =>
        absurd ((h.closeSent hqueued).symm.trans hended.2) (by decide)
      simp only [Program.meets_bind, Program.meets_modify]
      refine (meets_submit (r := WriteRequest.addPart (formatClose code reason) {})
        hk (h.withSession hadvances) .close rfl rfl c.log.owed rfl
        ⟨fun _ hqueued => absurd hqueued hnone, fun _ => rfl⟩).mono ?_
      intro result c' hsubmitted
      refine ⟨hsubmitted.native, (c.rely_withSession hadvances).trans hsubmitted.rely, fun hsent => ?_,
        hsubmitted.owed, hsubmitted.guarded hguarded fun _ => hending⟩
      exact absurd (hsent.symm.trans hended.2) (by decide)

end NativeTransport

/-- An open WebSocket works on its native transport. -/
theorem Settled.works (h : Settled c) (hnative : c.webSocket.nativeTransport = true)
    (hopen : c.webSocket.readyState = .opened) : Native c := by
  refine ⟨h.toPausing, ?_, ?_⟩
  · by_contra hreporting
    rcases h.reporting (by simpa using hreporting) with hstate | hstate
    · rw [hopen] at hstate
      cases hstate
    · rw [hopen] at hstate
      cases hstate
  · by_contra hinactive
    exact (h.quiet hnative (by simpa using hinactive)).1 hopen

/-- A failure is recorded that could not be reported. -/
theorem Settled.misreported (h : Settled c) (misreported : Bool) :
    Leaves none c (c.mapLog fun log => { log with misreported := log.misreported || misreported }) := by
  refine ⟨{ h with charged := fun hreported => h.charged ?_ },
    { Rely.refl c with misreported := fun hmis => ?_ }, fun hsent => ⟨hsent, id⟩, rfl⟩
  · have hreported : (c.log.misreported || misreported) = false := hreported
    exact (Bool.or_eq_false_iff.mp hreported).1
  · show (c.log.misreported || misreported) = true
    rw [hmis]
    rfl

namespace WebSocket

/-- A callback that is scheduled with an error. -/
theorem meets_schedule_error (h : Settled c) (howes : Owes callback outer c)
    {P : Connection Z → Prop} (hP : ∀ c', Settles outer c c' → P c') :
    ((schedule callback false : Run Z Unit) c).Meets (contract Z) fun _ c' => P c' :=
  hP _ (h.schedule howes fun hok => by cases hok)

/-- `_finishNativeWrite` takes the callback over, unless `_fail` throws. -/
theorem meets_finishNativeWrite (hk : k.Sound) (hnodup : (callback.toList ++ outer).Nodup)
    (howed : c.log.owed = callback.toList ++ outer) {status : ℤ} {c₁ : Connection Z}
    (h : Written callback outer c (.status status) c₁) :
    (finishNativeWrite k status callback c₁).Meets (contract Z) fun result c' =>
      match result with
      | none => Settled c' ∧ Rely c c' ∧ Silent c c' ∧ Owes callback outer c'
      | some _ => Settles outer c c' := by
  have hsettled : Settled c₁ := h.native.settled h.guarded
  unfold finishNativeWrite
  simp only [Program.meets_ite, Program.meets_bind, Program.meets_pure]
  split
  · next hdone =>
    split
    · next hsync =>
      have hother : NativeResult.status status ≠ .status WRITE_ASYNCHRONOUS := by
        intro hasync
        cases hasync
        exact absurd hsync (by decide)
      have howed₁ := (h.otherwise hother).trans howed
      have hsettles := @Settled.schedule Z c₁ callback outer hsettled (.inl howed₁) true
        fun _ => h.synchronous (by rw [hsync]; rfl)
      exact ⟨hsettles.settled, h.rely.trans hsettles.rely, h.silent.trans hsettles.silent,
        hsettles.owed⟩
    · next hlater =>
      have hle : status ≤ 1 := h.status_le status rfl
      have hasync : status = WRITE_ASYNCHRONOUS := by
        show status = 1
        omega
      exact ⟨hsettled, h.rely, h.silent, h.asynchronous (by rw [hasync])⟩
  · next hfailed =>
    have hother : NativeResult.status status ≠ .status WRITE_ASYNCHRONOUS := by
      intro hasync
      cases hasync
      exact hfailed (by decide)
    have howed₁ := (h.otherwise hother).trans howed
    refine meets_schedule_error hsettled (.inl howed₁) fun c₂ hscheduled => ?_
    refine (meets_fail hk hscheduled.settled).mono ?_
    rintro reported c₃ ⟨hleaves, -⟩
    have hsettles := hscheduled.andThen hleaves
    cases reported with
    | some _ =>
      exact ⟨hsettles.settled, h.rely.trans hsettles.rely, h.silent.trans hsettles.silent,
        hsettles.owed⟩
    | none =>
      have hmis := hsettles.settled.misreported callback.isSome
      refine ⟨hmis.settled, h.rely.trans (hsettles.rely.trans hmis.rely),
        h.silent.trans (hsettles.silent.trans hmis.silent), .inr ⟨hmis.owed.symm.trans hsettles.owed, ?_⟩⟩
      rintro b rfl
      refine ⟨(List.nodup_cons.mp hnodup).1, ?_⟩
      show (c₃.log.misreported || true) = true
      rw [Bool.or_true]

/-- A native write in its `try` block, whose `catch` block gets the callback where it is
still owed, or after its failure could not be reported. -/
theorem meets_tryNativeWrite (hk : k.Sound) {write : Run Z NativeResult}
    {handler : Run Z (Option Bool)} (hnodup : (callback.toList ++ outer).Nodup)
    (howed : c.log.owed = callback.toList ++ outer)
    (hwrite : (write c).Meets (contract Z) fun result c' => Written callback outer c result c')
    (hhandler : ∀ c', Settled c' → Owes callback outer c' →
      (handler c').Meets (contract Z) fun _ c'' => Settles outer c' c'') :
    (tryNativeWrite k write callback handler c).Meets (contract Z) fun _ c' => Settles outer c c' := by
  have hcaught : ∀ {c₁ : Connection Z}, Settled c₁ → Rely c c₁ → Silent c c₁ →
      Owes callback outer c₁ →
        (handler c₁).Meets (contract Z) fun _ c' => Settles outer c c' := by
    intro c₁ hsettled hrely hsilent howes
    refine (hhandler c₁ hsettled howes).mono fun _ c' h => ?_
    exact ⟨h.settled, hrely.trans h.rely, hsilent.trans h.silent, h.owed⟩
  unfold tryNativeWrite
  refine Program.meets_bind.mpr (hwrite.mono ?_)
  intro result c₁ hwritten
  cases result with
  | threw =>
    have howed₁ := (hwritten.otherwise (by simp)).trans howed
    exact hcaught (hwritten.native.settled hwritten.guarded) hwritten.rely hwritten.silent
      (.inl howed₁)
  | status status =>
    refine Program.meets_bind.mpr ((meets_finishNativeWrite hk hnodup howed hwritten).mono ?_)
    intro finished c₂ h
    cases finished with
    | none =>
      obtain ⟨hsettled, hrely, hsilent, howes⟩ := h
      exact hcaught hsettled hrely hsilent howes
    | some _ => exact h

/-- A `catch` block that fails in any case. -/
theorem meets_failWrite (hk : k.Sound) (h : Settled c) (howes : Owes callback outer c) :
    (failWrite k callback c).Meets (contract Z) fun result c' =>
      Settles outer c c' ∧ result ≠ some true ∧ c'.Ending := by
  unfold failWrite
  simp only [Program.meets_bind, Program.meets_pure]
  refine meets_schedule_error h howes fun c₁ hscheduled => ?_
  refine (meets_fail hk hscheduled.settled).mono ?_
  rintro failed c' ⟨hleaves, hending⟩
  refine ⟨hscheduled.andThen hleaves, ?_, hending⟩
  cases failed <;> simp

/-- The `catch` blocks of `send`. -/
theorem meets_failSend (hk : k.Sound) (h : Settled c) (howes : Owes callback outer c) :
    (failSend k callback c).Meets (contract Z) fun _ c' => Settles outer c c' := by
  unfold failSend
  simp only [Program.meets_bind, Program.meets_ite, Program.meets_pure]
  split
  · exact meets_schedule_error h howes fun _ hscheduled => hscheduled
  · next hnone =>
    have hnone : callback = none := by simpa using hnone
    subst hnone
    have howed : c.log.owed = outer := by
      rcases howes with howed | ⟨howed, -⟩
      · exact howed
      · exact howed
    exact (meets_fail hk h).mono fun _ _ hleaves => hleaves.1.settles howed

/-- `_acceptFallbackWrite` changes nothing where it accepts. -/
theorem meets_acceptFallbackWrite (hk : k.Sound) (h : Settled c)
    (howed : c.log.owed = callback.toList ++ outer) (bytes : ℕ) :
    (acceptFallbackWrite k bytes callback c).Meets (contract Z) fun result c' =>
      (result = some true → c' = c) ∧ (result ≠ some true → Settles outer c c') := by
  unfold acceptFallbackWrite
  simp only [Program.meets_bind, meets_webSocket, Program.meets_get, Program.meets_ite,
    Program.meets_pure]
  split
  · exact ⟨by simp, by simp⟩
  · refine meets_ask.mpr ⟨⟨h.toObserved, fun hevent => by cases hevent⟩, fun length _ => ?_⟩
    split
    · exact ⟨by simp, by simp⟩
    · refine meets_schedule_error h (.inl howed) fun c₁ hscheduled => ?_
      refine (meets_terminate_webSocket hk hscheduled.settled).mono ?_
      rintro terminated c' ⟨hleaves, -⟩
      refine ⟨fun hsome => ?_, fun _ => hscheduled.andThen hleaves⟩
      cases terminated <;> simp at hsome

end WebSocket

/-- The state after the Node socket has been given a whole frame. -/
def Connection.handedOver (c : Connection Z) (kind : Outgoing) (frame : Bytes)
    (callback : Option WriteCallback) (outer : List WriteCallback) : Connection Z :=
  { c with
    socket := { c.socket with callbacks := c.socket.callbacks ++ callback.toList }
    log := { c.log with
      frames := c.log.frames ++ [(kind, frame)]
      handed := c.log.handed ++ callback.toList
      owed := outer } }

/-- What a write to the Node socket leaves. A Close frame is followed by the end of
`OPEN` only with the next event. -/
structure Handed (kind : Outgoing) (frame : Bytes) (outer : List WriteCallback) (c : Connection Z)
    (result : Option Bool) (c' : Connection Z) : Prop where
  pausing : Pausing c'
  rely : Rely c c'
  owed : c'.log.owed = outer
  reporting : c'.transport.reportingError = true → c'.Ending
  silent : isCloseFrame (kind, frame) = false → Silent c c'
  guarded : isCloseFrame (kind, frame) = false ∨ c.Ending ∨ result ≠ some true → c'.Guarded

theorem Connection.closeQueued_handedOver {kind : Outgoing} {frame : Bytes} :
    (c.handedOver kind frame callback outer).CloseQueued ↔
      c.CloseQueued ∨ isCloseFrame (kind, frame) = true := by
  constructor
  · rintro ⟨frame', hmem, hclose⟩
    rcases List.mem_append.mp hmem with hold | hnew
    · exact .inl ⟨frame', hold, hclose⟩
    · rw [List.mem_singleton.mp hnew] at hclose
      exact .inr hclose
  · rintro (⟨frame', hmem, hclose⟩ | hclose)
    · exact ⟨frame', List.mem_append_left _ hmem, hclose⟩
    · exact ⟨_, List.mem_append_right _ List.mem_cons_self, hclose⟩

/-- The Node socket takes a frame over, with its callback. -/
theorem Stable.handOver (h : Stable c) (hfallback : c.webSocket.nativeTransport = false)
    (hlive : c.webSocket.closed = false) (howed : c.log.owed = callback.toList ++ outer)
    {kind : Outgoing} {frame : Bytes} (hadmissible : Admissible c (kind, frame)) :
    Stable (c.handedOver kind frame callback outer) :=
  { h with
    charged := by
      intro hreported b
      have hcharge := h.charged hreported b
      unfold Connection.charges at hcharge ⊢
      rw [howed, List.count_append] at hcharge
      show (c.log.fired.map (·.1)).count b + outer.count b +
        (deferredCallbacks c.transport.queue).count b +
          (c.socket.callbacks ++ callback.toList).count b = if b < c.log.callbacks then 1 else 0
      rw [List.count_append]
      omega
    paid := fun b hfired => (h.paid b hfired).mono (fun _ => id) (List.subset_append_left _ _) le_rfl
      (List.prefix_refl _)
    orderly := by
      intro honTime
      refine List.pairwise_append.mpr ⟨h.orderly honTime, List.pairwise_singleton _ _, ?_⟩
      intro frame₁ hmem frame₂ hmem' hclose
      rw [List.mem_singleton.mp hmem']
      exact hadmissible.orderly honTime ⟨frame₁, hmem, hclose⟩
    fresh := fun b hmem => h.fresh b (howed ▸ List.mem_append_right _ hmem)
    nodup := by
      have hnodup := h.nodup
      rw [howed] at hnodup
      exact (List.nodup_append.mp hnodup).2.1
    handed := by
      intro b hmem
      rcases List.mem_append.mp hmem with hold | hnew
      · exact List.mem_append_left _ (h.handed b hold)
      · exact List.mem_append_right _ hnew
    native := fun hnative => absurd (hnative.symm.trans hfallback) (by decide)
    drained := fun hclosed => absurd ((h.drained hclosed).1.symm.trans hlive) (by decide)
    closeSent := by
      intro hqueued
      rcases Connection.closeQueued_handedOver.mp hqueued with hold | hnew
      · exact h.closeSent hold
      · exact hadmissible.closeSent hnew }

theorem Settled.handedOver (h : Settled c) (hfallback : c.webSocket.nativeTransport = false)
    (hlive : c.webSocket.closed = false) (howed : c.log.owed = callback.toList ++ outer)
    {kind : Outgoing} {frame : Bytes} (hadmissible : Admissible c (kind, frame)) :
    Handed kind frame outer c (some true) (c.handedOver kind frame callback outer) where
  pausing := { h.toPausing with toStable := h.toStable.handOver hfallback hlive howed hadmissible }
  rely := { Rely.refl c with }
  owed := rfl
  reporting := h.reporting
  silent := by
    intro hother hsent
    refine ⟨hsent, fun hqueued => ?_⟩
    rcases Connection.closeQueued_handedOver.mp hqueued with hold | hnew
    · exact hold
    · exact absurd (hother.symm.trans hnew) (by decide)
  guarded := by
    rintro (hother | hending | hresult) honTime hqueued
    · rcases Connection.closeQueued_handedOver.mp hqueued with hold | hnew
      · exact h.guarded honTime hold
      · exact absurd (hother.symm.trans hnew) (by decide)
    · left
      intro hopen
      have hopen : c.webSocket.readyState = .opened := hopen
      rcases hending with hstate | hstate
      · rw [hopen] at hstate
        cases hstate
      · rw [hopen] at hstate
        cases hstate
    · exact absurd rfl hresult

theorem Settles.handed {c' : Connection Z} (h : Settles outer c c') (kind : Outgoing) (frame : Bytes)
    (result : Option Bool) : Handed kind frame outer c result c' :=
  ⟨h.settled.toPausing, h.rely, h.owed, h.settled.reporting, fun _ => h.silent,
    fun _ => h.settled.guarded⟩

theorem Handed.settles {kind : Outgoing} {frame : Bytes} {result : Option Bool} {c' : Connection Z}
    (h : Handed kind frame outer c result c') (hother : isCloseFrame (kind, frame) = false) :
    Settles outer c c' :=
  ⟨⟨h.pausing, h.reporting, h.guarded (.inl hother)⟩, h.rely, h.silent hother, h.owed⟩

namespace WebSocket

/-- The parts of a frame, where only the last write hands it over. -/
private theorem meets_writeParts (h : Settled c) {kind : Outgoing} {frame : Bytes}
    {P : Bool → Connection Z → Prop} (howed : c.log.owed = callback.toList ++ outer)
    (hwritten : P true (c.handedOver kind frame callback outer)) (hthrew : P false c)
    {parts : List Bytes} (hparts : parts ≠ []) :
    (writeParts kind frame callback parts c).Meets (contract Z) P := by
  induction parts with
  | nil => exact absurd rfl hparts
  | cons part rest ih =>
    cases rest with
    | nil =>
      unfold writeParts
      simp only [Program.meets_bind, Program.meets_ite, Program.meets_pure, meets_modifyLog,
        meets_modifySocket]
      refine meets_ask.mpr ⟨⟨h.toObserved, fun hevent => by cases hevent⟩, fun written _ => ?_⟩
      split
      · exact hthrew
      · rw [Connection.mapLog_settle outer (by exact howed)]
        exact hwritten
    | cons next rest =>
      unfold writeParts
      simp only [Program.meets_bind, Program.meets_ite, Program.meets_pure]
      refine meets_ask.mpr ⟨⟨h.toObserved, fun hevent => by cases hevent⟩, fun written _ => ?_⟩
      split
      · exact hthrew
      · exact ih (by simp)

/-- `_writeFrameParts` and `_writeTwoFrameParts`. -/
theorem meets_writeFrameParts (hk : k.Sound) (h : Settled c)
    (hfallback : c.webSocket.nativeTransport = false) (hlive : c.webSocket.closed = false)
    {kind : Outgoing} {parts : List Bytes} (hparts : parts ≠ [])
    (howed : c.log.owed = callback.toList ++ outer)
    (hadmissible : Admissible c (kind, parts.flatten)) :
    (writeFrameParts k kind parts callback c).Meets (contract Z) fun result c' =>
      Handed kind parts.flatten outer c result c' := by
  unfold writeFrameParts
  refine Program.meets_bind.mpr ((meets_acceptFallbackWrite hk h howed _).mono ?_)
  rintro accepted c₁ ⟨hsame, hrefused⟩
  match accepted with
  | none => exact (hrefused (by simp)).handed _ _ _
  | some false => exact (hrefused (by simp)).handed _ _ _
  | some true =>
    rw [hsame rfl]
    refine Program.meets_bind.mpr (meets_writeParts h howed ?_ ?_ hparts)
    · exact h.handedOver hfallback hlive howed hadmissible
    · refine Comm.Meets.mono (meets_failWrite hk h (.inl howed)) ?_
      rintro result c' ⟨hsettles, -, -⟩
      exact hsettles.handed _ _ _

/-- Asking whether the Node socket is writable changes nothing. -/
private theorem meets_socketWritable (h : Settled c) {P : Bool → Connection Z → Prop}
    (hP : ∀ writable, P writable c) : (socketWritable c).Meets (contract Z) P := by
  unfold socketWritable
  simp only [Program.meets_bind, Program.meets_get, Program.meets_ite, Program.meets_pure]
  split
  · exact hP false
  · exact meets_ask.mpr ⟨⟨h.toObserved, fun hevent => by cases hevent⟩, fun writable _ => hP _⟩

/-- `_writeFrame` on the fallback driver. -/
theorem meets_writeFrame_fallback (hk : k.Sound) (h : Settled c)
    (hfallback : c.webSocket.nativeTransport = false) (hlive : c.webSocket.closed = false)
    {kind : Outgoing} {frame : Bytes} (howed : c.log.owed = callback.toList ++ outer)
    (hadmissible : Admissible c (kind, frame)) :
    (writeFrame k kind frame callback c).Meets (contract Z) fun result c' =>
      Handed kind frame outer c result c' := by
  have hframe : [frame].flatten = frame := by simp
  have hparts := meets_writeFrameParts hk h hfallback hlive (List.cons_ne_nil frame []) howed
    (hframe.symm ▸ hadmissible)
  rw [hframe] at hparts
  have hrefuse : (schedule callback false c : Comm _ _ _ _).Meets (contract Z) fun _ c' =>
      Handed kind frame outer c (some false) c' :=
    meets_schedule_error h (.inl howed) fun _ hscheduled => hscheduled.handed _ _ _
  unfold writeFrame
  simp only [Program.meets_bind, meets_webSocket, Program.meets_ite, Program.meets_pure]
  rw [if_neg (by rw [hfallback]; decide)]
  refine meets_socketWritable h fun writable => ?_
  split
  · exact hrefuse
  · exact hparts

/-- `_writeFrame` of a frame that is not a Close frame on the native driver. -/
theorem meets_writeFrame_native (hk : k.Sound) (h : Native c) (hguarded : c.Guarded)
    (hnative : c.webSocket.nativeTransport = true) {kind : Outgoing} (frame : Bytes)
    (howed : c.log.owed = callback.toList ++ outer)
    (hpermits : c.transport.closing = false → Permits kind c) :
    (writeFrame k kind frame callback c).Meets (contract Z) fun _ c' => Settles outer c c' := by
  have hsettled := h.settled hguarded
  have hnodup := h.nodup
  rw [howed] at hnodup
  unfold writeFrame
  simp only [Program.meets_bind, meets_webSocket, Program.meets_ite, Program.meets_pure]
  rw [if_pos hnative]
  split
  · exact meets_schedule_error hsettled (.inl howed) fun _ hscheduled => hscheduled
  · refine meets_tryNativeWrite hk hnodup howed
      (meets_writeFrameList hk h hguarded kind [some frame] howed hpermits) ?_
    intro c' hsettled' howes
    exact (meets_failWrite hk hsettled' howes).mono fun _ _ hfailed => hfailed.1

/-- An open WebSocket of the fallback driver is not closed. -/
private theorem live_of_opened (h : Settled c) (hfallback : c.webSocket.nativeTransport = false)
    (hopen : c.webSocket.readyState = .opened) : c.webSocket.closed = false := by
  by_contra hclosed
  have hstate := h.shut hfallback (by simpa using hclosed)
  rw [hopen] at hstate
  cases hstate

/-- Data frames are admitted on the open fallback driver, which never closes a transport. -/
private theorem permits_fallback (h : Settled c) (hfallback : c.webSocket.nativeTransport = false)
    (hopen : c.webSocket.readyState = .opened) (kind : Outgoing)
    (hclose : ∀ data, isCloseFrame (kind, data) = false) : Permits kind c := by
  refine h.guarded.permits hclose hopen ?_
  by_contra hclosing
  exact absurd ((h.foreign (by simpa using hclosing)).symm.trans hfallback) (by decide)

/-- `send` with compression on the fallback driver. -/
private theorem meets_sendCompressed (hk : k.Sound) (h : Settled c)
    (hfallback : c.webSocket.nativeTransport = false) (hopen : c.webSocket.readyState = .opened)
    (message : Bytes) (opCode : OpCode) (howed : c.log.owed = callback.toList ++ outer) :
    (sendCompressed k message opCode callback c).Meets (contract Z) fun _ c' => Settles outer c c' := by
  have hadvances := c.createFrame_advances message opCode true
  have hleaves := h.withSession hadvances
  unfold sendCompressed
  simp only [Program.meets_bind, Program.meets_get]
  cases hframe : c.session.createFrame message opCode true with
  | mk frame session =>
    rw [hframe] at hleaves
    have hafter : ∀ {c' : Connection Z}, Settles outer { c with session } c' → Settles outer c c' :=
      fun hsettles => ⟨hsettles.settled, hleaves.rely.trans hsettles.rely,
        hleaves.silent.trans hsettles.silent, hsettles.owed⟩
    cases frame with
    | none =>
      simp only [Program.meets_bind, Program.meets_modify]
      exact (meets_failSend hk hleaves.settled (.inl howed)).mono fun _ _ hsettles => hafter hsettles
    | some frame =>
      simp only [Program.meets_bind, Program.meets_modify]
      have hpermits := permits_fallback hleaves.settled hfallback hopen (.message opCode)
        fun _ => rfl
      refine (meets_writeFrame_fallback hk hleaves.settled hfallback
        (live_of_opened hleaves.settled hfallback hopen) howed (hpermits.admissible frame)).mono ?_
      exact fun _ _ hhanded => hafter (hhanded.settles rfl)

/-- `send` passes its callback on, whatever happens. -/
theorem meets_send (hk : k.Sound) (h : Settled c) (message : Bytes) (binary compress : Bool)
    (howed : c.log.owed = callback.toList ++ outer) :
    (send k message binary compress callback c).Meets (contract Z) fun _ c' =>
      Settles outer c c' := by
  have hnodup := h.nodup
  rw [howed] at hnodup
  unfold send
  simp only [Program.meets_bind, meets_webSocket, Program.meets_ite, Program.meets_pure]
  split
  · exact meets_schedule_error h (.inl howed) fun _ hscheduled => hscheduled
  · next hready =>
    simp only [Bool.or_eq_true, decide_eq_true_eq, not_or, ne_eq, not_not] at hready
    obtain ⟨hopen, -⟩ := hready
    split
    · next hnative =>
      have hworks := h.works hnative hopen
      refine meets_tryNativeWrite hk hnodup howed (meets_writeMessage hk hworks h.guarded message _ _
        howed fun hclosing => h.guarded.permits (fun _ => rfl) hopen hclosing) ?_
      exact fun c' hsettled howes => meets_failSend hk hsettled howes
    · next hfallback =>
      have hfallback : c.webSocket.nativeTransport = false := by simpa using hfallback
      split
      · exact meets_sendCompressed hk h hfallback hopen message _ howed
      · have hlive := live_of_opened h hfallback hopen
        have hpermits := permits_fallback h hfallback hopen
          (.message (if binary then .binary else .text)) fun _ => rfl
        split
        · exact (meets_writeFrame_fallback hk h hfallback hlive howed
            (hpermits.admissible _)).mono fun _ _ hhanded => hhanded.settles rfl
        · exact (meets_writeFrameParts hk h hfallback hlive (by simp) howed
            (hpermits.admissible _)).mono fun _ _ hhanded => hhanded.settles rfl

/-- `_sendFrameList` passes its callback on, whatever happens. -/
theorem meets_sendFrameList (hk : k.Sound) (h : Settled c) (list : List (Option Bytes))
    (howed : c.log.owed = callback.toList ++ outer) :
    (sendFrameList k list callback c).Meets (contract Z) fun _ c' => Settles outer c c' := by
  have hnodup := h.nodup
  rw [howed] at hnodup
  have hrefuse : (schedule callback false c : Comm _ _ _ _).Meets (contract Z) fun _ c' =>
      Settles outer c c' :=
    meets_schedule_error h (.inl howed) fun _ hscheduled => hscheduled
  unfold sendFrameList
  simp only [Program.meets_bind, meets_webSocket, Program.meets_ite, Program.meets_pure]
  split
  · exact hrefuse
  · next hready =>
    simp only [Bool.or_eq_true, decide_eq_true_eq, not_or, ne_eq, not_not] at hready
    obtain ⟨hopen, -⟩ := hready
    split
    · next hnative =>
      have hworks := h.works hnative hopen
      have hpermits : c.transport.closing = false → Permits .frameList c := fun hclosing =>
        h.guarded.permits (fun _ => rfl) hopen hclosing
      have hhandler : ∀ c', Settled c' → Owes callback outer c' →
          (failWrite k callback c').Meets (contract Z) fun _ c'' => Settles outer c' c'' :=
        fun c' hsettled howes => (meets_failWrite hk hsettled howes).mono fun _ _ hfailed => hfailed.1
      cases prepareNativeFrame list with
      | none => exact hrefuse
      | some frame =>
        simp only [Program.meets_bind, Program.meets_ite, Program.meets_pure]
        split
        · exact hrefuse
        · cases frame with
          | inl frame =>
            exact meets_tryNativeWrite hk hnodup howed
              (meets_writeFrame hk hworks h.guarded frame howed hpermits) hhandler
          | inr list =>
            exact meets_tryNativeWrite hk hnodup howed
              (meets_writeFrameList hk hworks h.guarded .frameList list howed hpermits) hhandler
    · next hfallback =>
      have hfallback : c.webSocket.nativeTransport = false := by simpa using hfallback
      have hlive := live_of_opened h hfallback hopen
      have hpermits := permits_fallback h hfallback hopen .frameList fun _ => rfl
      refine meets_socketWritable h fun writable => ?_
      split
      · exact hrefuse
      · split
        · exact hrefuse
        · next hwhole =>
          have hwhole : ¬list = [] ∧ none ∉ list := by simpa using hwhole
          have hparts : list.filterMap id ≠ [] := by
            obtain ⟨part, rest, rfl⟩ := List.exists_cons_of_ne_nil hwhole.1
            cases part with
            | none => exact absurd List.mem_cons_self hwhole.2
            | some part => simp
          have hone : ∀ frame, ((do
              return (← writeFrame k .frameList frame callback).map fun _ => () :
                Run Z (Option Unit)) c).Meets (contract Z) fun _ c' => Settles outer c c' := by
            intro frame
            simp only [Program.meets_bind, Program.meets_pure]
            exact (meets_writeFrame_fallback hk h hfallback hlive howed
              (hpermits.admissible _)).mono fun _ _ hhanded => hhanded.settles rfl
          have hmany : ∀ parts, parts ≠ [] → ((do
              return (← writeFrameParts k .frameList parts callback).map fun _ => () :
                Run Z (Option Unit)) c).Meets (contract Z) fun _ c' => Settles outer c c' := by
            intro parts hparts
            simp only [Program.meets_bind, Program.meets_pure]
            exact (meets_writeFrameParts hk h hfallback hlive hparts howed
              (hpermits.admissible _)).mono fun _ _ hhanded => hhanded.settles rfl
          cases hlist : list.filterMap id with
          | nil => exact absurd hlist hparts
          | cons first rest =>
            cases rest with
            | nil => exact hone first
            | cons second rest => exact hmany _ (by simp)

end WebSocket

end Eiows
