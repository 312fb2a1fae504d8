import Eiows.Transport.Flushing

/-!
# Submission of requests

A submission that is accepted takes its callback over, or its bytes have been
written when it returns. Either way the bound on the bytes pending is kept.
-/

namespace Eiows

open Interaction

variable {Z : Zlib}

/-- The requests of the queue are those submitted under their serial numbers. -/
theorem Stable.submitted_serial {c : Connection Z} {r : WriteRequest} (h : Stable c)
    (hmem : r ∈ c.transport.queue) : c.log.submitted[r.serial]? = some ⟨r.content, r.callback⟩ := by
  obtain ⟨i, hi, rfl⟩ := List.getElem_of_mem hmem
  have hserial : (c.transport.queue[i]).serial = c.log.completions.length + i := by
    have hserials := congrArg (·[i]?) h.serials
    simpa [hi] using hserials
  have hwaiting := congrArg (·[i]?) h.waiting
  rw [hserial, ← List.getElem?_drop]
  simpa [hi] using hwaiting

/-- A request that has left the queue of an open transport has been completed. -/
theorem Stable.completed_of_left {c : Connection Z} {serial : ℕ} (h : Stable c)
    (hopen : c.transport.closing = false) (hserial : serial < c.log.submitted.length)
    (hleft : ∀ r ∈ c.transport.queue, r.serial ≠ serial) : serial < c.log.completed := by
  have hlengths := h.lengths
  rw [h.complete hopen]
  by_contra hlate
  have hmem : serial ∈ c.transport.queue.map (·.serial) := by
    rw [h.serials, List.mem_range'_1]
    omega
  obtain ⟨r, hr, hsame⟩ := List.mem_map.mp hmem
  exact hleft r hr hsame

/-- What a submission leaves, before the bytes pending are looked at. -/
structure Accepted (c : Connection Z) (kind : Outgoing) (r : WriteRequest) (outer : List WriteCallback)
    (status : ℤ) (c' : Connection Z) : Prop where
  native : Native c'
  persists : Persists c c'
  deferred : ∀ r' ∈ c'.transport.queue, r'.deferred = true →
    r'.serial < c.log.submitted.length → ∃ r ∈ c.transport.queue, r.serial = r'.serial ∧
      r.deferred = true
  bounded : c'.transport.closing = false → c'.transport.maxBackpressure ≠ 0 →
    c'.transport.pendingBytes ≤ c'.transport.maxBackpressure
  silent : isCloseFrame (kind, r.content) = false → Silent c c'
  guarded : c.Guarded → (isCloseFrame (kind, r.content) = true → c.Ending) → c'.Guarded
  status_le : status ≤ WRITE_ASYNCHRONOUS
  asynchronous : status = WRITE_ASYNCHRONOUS → c'.log.owed = outer
  otherwise : status ≠ WRITE_ASYNCHRONOUS → c'.log.owed = c.log.owed
  synchronous : status = WRITE_SYNCHRONOUS → ∀ callback, r.callback = some callback →
    c'.log.Paid callback

/-- What `submit` leaves with its result. -/
structure Submitted (c : Connection Z) (kind : Outgoing) (content : Bytes)
    (callback : Option WriteCallback) (outer : List WriteCallback) (result : NativeResult)
    (c' : Connection Z) : Prop where
  native : Native c'
  rely : Rely c c'
  silent : isCloseFrame (kind, content) = false → Silent c c'
  guarded : c.Guarded → (isCloseFrame (kind, content) = true → c.Ending) → c'.Guarded
  status_le : ∀ status, result = .status status → status ≤ WRITE_ASYNCHRONOUS
  asynchronous : result = .status WRITE_ASYNCHRONOUS → c'.log.owed = outer
  otherwise : result ≠ .status WRITE_ASYNCHRONOUS → c'.log.owed = c.log.owed
  synchronous : result = .status WRITE_SYNCHRONOUS → ∀ callback', callback = some callback' →
    c'.log.Paid callback'

/-- A result is added to the record. -/
theorem Accepted.submitted {c c' : Connection Z} {kind : Outgoing} {r : WriteRequest}
    {outer : List WriteCallback} {status : ℤ}
    (h : Accepted c kind r outer status c') :
    Submitted c kind r.content r.callback outer (.status status) (c'.mapLog fun log =>
      { log with returns := log.returns ++ [(c'.transport.pendingBytes, c'.transport.closing)] }) where
  native := { h.native with
    returns := by
      intro p hp hopen hlimited
      rcases List.mem_append.mp hp with hold | hnew
      · exact h.native.returns p hold hopen hlimited
      · rw [List.mem_singleton.mp hnew] at hopen ⊢
        exact h.bounded hopen hlimited }
  rely := { h.persists with
    deferred := h.deferred
    within := by
      intro limit serial hlimit hlimited hopen _
      left
      have hmax := h.persists.maxBackpressure
      exact (h.bounded hopen (hmax ▸ hlimited)).trans (hmax.trans_le hlimit) }
  silent := h.silent
  guarded := h.guarded
  status_le := fun status' hsame => by cases hsame; exact h.status_le
  asynchronous := fun hasync => h.asynchronous (by cases hasync; rfl)
  otherwise := fun hother => h.otherwise fun hasync => hother (by rw [hasync])
  synchronous := fun hsync callback hcallback => h.synchronous (by cases hsync; rfl) callback hcallback

theorem Submitted.refused {c : Connection Z} (h : Native c) (kind : Outgoing) (content : Bytes)
    (callback : Option WriteCallback) (outer : List WriteCallback) {result : NativeResult}
    (hresult : result = .threw ∨ ∃ status < 0, result = .status status) :
    Submitted c kind content callback outer result c where
  native := h
  rely := .refl c
  silent := fun _ => .refl c
  guarded := fun hguarded _ => hguarded
  status_le := by
    rintro status rfl
    rcases hresult with hthrew | ⟨status', hneg, hsame⟩
    · cases hthrew
    · cases hsame
      exact hneg.le.trans (by decide)
  asynchronous := by
    rintro rfl
    rcases hresult with hthrew | ⟨status', hneg, hsame⟩
    · cases hthrew
    · cases hsame
      exact absurd hneg (by decide)
  otherwise := fun _ => rfl
  synchronous := by
    rintro rfl
    rcases hresult with hthrew | ⟨status', hneg, hsame⟩
    · cases hthrew
    · cases hsame
      exact absurd hneg (by decide)

namespace NativeTransport

variable {k : Callees Z} {c : Connection Z} {r : WriteRequest} {kind : Outgoing}
  {outer : List WriteCallback}

theorem not_exceeded {t : NativeTransport} (h : ¬t.backpressureExceeded = true)
    (hlimited : t.maxBackpressure ≠ 0) : t.pendingBytes ≤ t.maxBackpressure := by
  simp only [backpressureExceeded, Bool.and_eq_true, decide_eq_true_eq, not_and, not_lt] at h
  exact h hlimited

/-- Waiting requests that exceed the bound end the connection, others are polled for. -/
theorem meets_submitQueued (hk : k.Sound) (h : Native c) :
    (submitQueued k c).Meets (contract Z) fun status c' => Keeps c c' ∧
      status = WRITE_ASYNCHRONOUS ∧ (c'.transport.closing = false →
        c'.transport.maxBackpressure ≠ 0 →
          c'.transport.pendingBytes ≤ c'.transport.maxBackpressure) := by
  unfold submitQueued
  simp only [Program.meets_bind, meets_transport, Program.meets_ite, Program.meets_pure]
  split
  · refine (meets_terminateForBackpressure hk h).mono ?_
    rintro _ c' ⟨hleaves, hclosing⟩
    exact ⟨hleaves.keeps h, trivial, fun hopen => absurd (hclosing.symm.trans hopen) (by decide)⟩
  · next hfits =>
    refine (meets_updatePoll hk h).mono ?_
    rintro _ c' ⟨hkeeps, hsame⟩
    refine ⟨hkeeps, trivial, fun hopen hlimited => ?_⟩
    rcases hsame with hclosing | hpending
    · exact absurd (hclosing.symm.trans hopen) (by decide)
    · rw [hkeeps.rely.maxBackpressure] at hlimited ⊢
      rw [hpending]
      exact not_exceeded hfits hlimited

/-- A new request in the queue. -/
private theorem native_enqueued (h : Native c) (hopen : c.transport.closing = false)
    (hfd : c.transport.descriptorOpen = true) (hat : r.At 0) (hsent : r.sent = 0)
    (hserial : r.serial = c.log.submitted.length)
    (outer : List WriteCallback) (howed : c.log.owed = r.ownCallback.toList ++ outer)
    (hadmissible : Admissible c (kind, r.content)) :
    Native (c.enqueued kind r outer) ∧ Persists c (c.enqueued kind r outer) ∧
      (isCloseFrame (kind, r.content) = false → Silent c (c.enqueued kind r outer)) ∧
        (c.Guarded → (isCloseFrame (kind, r.content) = true → c.Ending) →
          (c.enqueued kind r outer).Guarded) := by
  have hstable := h.toStable.enqueue hopen hfd h.active hat hsent hserial howed hadmissible
  refine ⟨{ h with toStable := hstable }, ?_, ?_, ?_⟩
  · exact { Persists.refl c with submitted := List.prefix_append _ _ }
  · intro hdata hclosed
    refine ⟨hclosed, fun hqueued => ?_⟩
    rcases Connection.closeQueued_enqueued.mp hqueued with hold | hnew
    · exact hold
    · rw [hdata] at hnew
      cases hnew
  · intro hguarded hending honTime hqueued
    rcases Connection.closeQueued_enqueued.mp hqueued with hold | hnew
    · exact hguarded honTime hold
    · left
      rcases hending hnew with hstate | hstate
      · intro hopened
        exact absurd (hstate.symm.trans hopened) (by decide)
      · intro hopened
        exact absurd (hstate.symm.trans hopened) (by decide)

/-- What a request that is deferred at once leaves. -/
private theorem accepted_queued {c' : Connection Z} {status : ℤ} (hserial : r.serial = c.log.submitted.length)
    (hpersists : Persists c (c.enqueued kind r.defer outer))
    (hsilent : isCloseFrame (kind, r.content) = false → Silent c (c.enqueued kind r.defer outer))
    (hguarded : c.Guarded → (isCloseFrame (kind, r.content) = true → c.Ending) →
      (c.enqueued kind r.defer outer).Guarded)
    (hkeeps : Keeps (c.enqueued kind r.defer outer) c') (hstatus : status = WRITE_ASYNCHRONOUS)
    (hbounded : c'.transport.closing = false → c'.transport.maxBackpressure ≠ 0 →
      c'.transport.pendingBytes ≤ c'.transport.maxBackpressure) :
    Accepted c kind r outer status c' where
  native := hkeeps.native
  persists := hpersists.trans hkeeps.rely.toPersists
  deferred := by
    intro r' hr' hdeferred hold
    obtain ⟨r₁, hr₁, hsame, hdeferred₁⟩ := hkeeps.rely.deferred r' hr' hdeferred
      (hold.trans_le hpersists.submitted.length_le)
    rcases List.mem_append.mp hr₁ with hbefore | hnew
    · exact ⟨r₁, hbefore, hsame, hdeferred₁⟩
    · rw [List.mem_singleton.mp hnew] at hsame
      have hsame : r.serial = r'.serial := hsame
      omega
  bounded := hbounded
  silent := fun hdata => (hsilent hdata).trans hkeeps.silent
  guarded := fun hc hending => hkeeps.guarded (hguarded hc hending)
  status_le := hstatus.le
  asynchronous := fun _ => hkeeps.owed.symm
  otherwise := fun hother => absurd hstatus hother
  synchronous := fun hsync => absurd (hsync.symm.trans hstatus) (by decide)

theorem meets_submitPrepared (hk : k.Sound) (h : Native c) (hopen : c.transport.closing = false)
    (hfd : c.transport.descriptorOpen = true) (hat : r.At 0) (hsent : r.sent = 0)
    (hwaits : r.deferred = false) (hserial : r.serial = c.log.submitted.length)
    (outer : List WriteCallback) (howed : c.log.owed = r.callback.toList ++ outer)
    (hadmissible : Admissible c (kind, r.content)) :
    (submitPrepared k kind r.content r c).Meets (contract Z) fun status c' =>
      Accepted c kind r outer status c' := by
  unfold submitPrepared enqueue
  simp only [Program.meets_bind, meets_transport, Program.meets_ite, meets_modifyTransport,
    meets_modifyLog]
  split
  · obtain ⟨hnative, hpersists, hsilent, hguarded⟩ := native_enqueued (r := r.defer) h hopen hfd
      { hat with } hsent hserial outer howed hadmissible
    rw [Connection.mapLog_settle outer (by exact howed)]
    refine (meets_submitQueued hk hnative).mono ?_
    rintro status c' ⟨hkeeps, hstatus, hbounded⟩
    exact accepted_queued hserial hpersists hsilent hguarded hkeeps hstatus hbounded
  · next hfirst =>
    have hempty : c.transport.queue = [] := by
      simp only [Bool.or_eq_true, decide_eq_true_eq, not_or, not_not, ne_eq] at hfirst
      exact hfirst.1
    have hown : r.ownCallback = none := by simp [WriteRequest.ownCallback, hwaits]
    obtain ⟨hnative, hpersists, hsilent, hguarded⟩ := native_enqueued h hopen hfd hat hsent hserial
      c.log.owed (by rw [hown]; rfl) hadmissible
    have hqueue : (c.enqueued kind r c.log.owed).transport.queue = [r] := by
      show c.transport.queue ++ [r] = [r]
      rw [hempty]
      rfl
    have hcalm : (c.enqueued kind r c.log.owed).Calm := by
      right
      rw [hqueue]
      intro r' hr'
      rw [List.mem_singleton.mp hr']
      exact hwaits
    set c₁ := c.enqueued kind r c.log.owed with hc₁
    have hsubmitted : r.serial < c₁.log.submitted.length := by
      rw [hserial]
      show c.log.submitted.length < (c.log.submitted ++ [_]).length
      simp
    unfold submitFirst
    simp only [Program.meets_bind, meets_transport, Program.meets_ite, Program.meets_pure,
      meets_modifyTransport, meets_modifyLog]
    refine Comm.Meets.mono (meets_flushWrites hk hnative hcalm) ?_
    intro _ c₂ hflushed
    have hflushed : Keeps c₁ c₂ := hflushed
    have hnone : ∀ r' ∈ c₂.transport.queue, r'.deferred = true →
        ¬r'.serial ≤ c.log.submitted.length := by
      intro r' hr' hdeferred hold
      obtain ⟨r₁, hr₁, -, hdeferred₁⟩ := hflushed.rely.deferred r' hr' hdeferred (by omega)
      rw [hqueue] at hr₁
      rw [List.mem_singleton.mp hr₁] at hdeferred₁
      exact absurd (hdeferred₁.symm.trans hwaits) (by decide)
    have hpersists₂ := hpersists.trans hflushed.rely.toPersists
    have hsilent₂ := fun hdata => (hsilent hdata).trans hflushed.silent
    have hguarded₂ := fun hc hending => hflushed.guarded (hguarded hc hending)
    split
    · exact { native := hflushed.native
              persists := hpersists₂
              deferred := fun r' hr' hdeferred hold => absurd hold.le (hnone r' hr' hdeferred)
              bounded := fun hopen' => absurd hopen' (by simp_all)
              silent := hsilent₂
              guarded := hguarded₂
              status_le := by decide
              asynchronous := fun hasync => absurd hasync (by decide)
              otherwise := fun _ => hflushed.owed.symm
              synchronous := fun hsync => absurd hsync (by decide) }
    · next hopen₂ =>
      have hopen₂ : c₂.transport.closing = false := by simpa using hopen₂
      split
      · next hstays =>
        obtain ⟨r₂, hr₂, hsame⟩ := List.any_eq_true.mp hstays
        have hsame : r₂.serial = r.serial := by simpa using hsame
        have hwaits₂ : r₂.deferred = false := by
          by_contra hdeferred
          exact hnone r₂ hr₂ (by simpa using hdeferred) (by omega)
        have hcallback : r₂.callback = r.callback := by
          have hget := hflushed.native.submitted_serial hr₂
          obtain ⟨later, hlater⟩ := hflushed.rely.submitted
          rw [hsame, ← hlater, List.getElem?_append_left hsubmitted, hserial] at hget
          have hnew : c₁.log.submitted[c.log.submitted.length]? = some ⟨r.content, r.callback⟩ :=
            List.getElem?_concat_length
          rw [hnew] at hget
          exact (congrArg Submission.callback (Option.some.inj hget)).symm
        have howed₂ : c₂.log.owed = r₂.callback.toList ++ outer := by
          rw [← hflushed.owed, hcallback]
          exact howed
        have hnative₃ : Native (c₂.deferredAt r.serial outer) :=
          { hflushed.native with
            toStable := hflushed.native.toStable.defer hr₂ hsame hwaits₂ howed₂ }
        have hstate : ((c₂.mapTransport (deferRequest r.serial)).mapLog
            (Log.settle r.callback)) = c₂.deferredAt r.serial outer := by
          rw [Connection.mapLog_settle outer (by rw [← hcallback]; exact howed₂)]
          rfl
        have hstep : Persists c₂ (c₂.deferredAt r.serial outer) := { Persists.refl c₂ with }
        have hdone : ∀ {c₄ : Connection Z}, Keeps (c₂.deferredAt r.serial outer) c₄ →
            (c₄.transport.closing = false → c₄.transport.maxBackpressure ≠ 0 →
              c₄.transport.pendingBytes ≤ c₄.transport.maxBackpressure) →
            Accepted c kind r outer WRITE_ASYNCHRONOUS c₄ := by
          intro c₄ hkeeps hbounded
          exact { native := hkeeps.native
                  persists := (hpersists₂.trans hstep).trans hkeeps.rely.toPersists
                  deferred := by
                    intro r' hr' hdeferred hold
                    obtain ⟨r₃, hr₃, hsame₃, hdeferred₃⟩ := hkeeps.rely.deferred r' hr' hdeferred
                      (hold.trans_le hpersists₂.submitted.length_le)
                    obtain ⟨r₅, hr₅, rfl⟩ := List.mem_map.mp hr₃
                    split at hdeferred₃
                    · next hthis =>
                      rw [if_pos hthis] at hsame₃
                      have hsame₃ : r₅.serial = r'.serial := hsame₃
                      omega
                    · next hother =>
                      rw [if_neg hother] at hsame₃
                      exact absurd (hsame₃.trans_le hold.le) (hnone r₅ hr₅ hdeferred₃)
                  bounded := hbounded
                  silent := fun hdata => (hsilent₂ hdata).trans hkeeps.silent
                  guarded := fun hc hending => hkeeps.guarded (hguarded₂ hc hending)
                  status_le := le_rfl
                  asynchronous := fun _ => hkeeps.owed.symm
                  otherwise := fun hother => absurd rfl hother
                  synchronous := fun hsync => absurd hsync (by decide) }
        rw [hstate]
        split
        · refine (meets_terminateForBackpressure hk hnative₃).mono ?_
          rintro _ c₄ ⟨hleaves, hclosing⟩
          rw [if_pos hclosing]
          exact hdone (hleaves.keeps hnative₃)
            fun hopen₄ => absurd (hclosing.symm.trans hopen₄) (by decide)
        · next hfits =>
          have hstill : ¬(c₂.deferredAt r.serial outer).transport.closing = true := fun hclosing =>
            absurd (hclosing.symm.trans hopen₂) (by decide)
          rw [if_neg hstill]
          refine (meets_updatePoll hk hnative₃).mono ?_
          rintro _ c₄ ⟨hkeeps, hpending⟩
          refine hdone hkeeps fun hopen₄ hlimited => ?_
          rcases hpending with hclosing | hpending
          · exact absurd (hclosing.symm.trans hopen₄) (by decide)
          · rw [hkeeps.rely.maxBackpressure] at hlimited ⊢
            rw [hpending]
            exact not_exceeded hfits hlimited
      · next hleft =>
        have hleft : ∀ r' ∈ c₂.transport.queue, r'.serial ≠ r.serial := by
          intro r' hr' hsame
          exact hleft (List.any_eq_true.mpr ⟨r', hr', by simpa using hsame⟩)
        exact { native := hflushed.native
                persists := hpersists₂
                deferred := fun r' hr' hdeferred hold => absurd hold.le (hnone r' hr' hdeferred)
                bounded := by
                  intro _ hlimited
                  have hmax := hflushed.rely.maxBackpressure
                  rw [hmax] at hlimited ⊢
                  rcases hflushed.rely.within _ r.serial le_rfl hlimited hopen₂
                    (.inr ⟨r, hqueue, rfl⟩) with hle | ⟨r', hsingle, hsame⟩
                  · exact hle
                  · exact absurd hsame (hleft r' (hsingle ▸ List.mem_cons_self))
                silent := hsilent₂
                guarded := hguarded₂
                status_le := by decide
                asynchronous := fun hasync => absurd hasync (by decide)
                otherwise := fun _ => hflushed.owed.symm
                synchronous := by
                  intro _ callback hcallback
                  obtain ⟨later, hlater⟩ := hflushed.rely.submitted
                  have hlong : r.serial < c₂.log.submitted.length :=
                    hsubmitted.trans_le hflushed.rely.submitted.length_le
                  refine .inr (.inr ⟨r.serial, hflushed.native.completed_of_left hopen₂ hlong hleft,
                    ⟨r.content, r.callback⟩, ?_, hcallback⟩)
                  rw [← hlater, List.getElem?_append_left hsubmitted, hserial]
                  exact List.getElem?_concat_length }

/-- Coalescing keeps the request as it is, apart from its parts. -/
private theorem coalesce_spec {r' : WriteRequest} (hat : r.At 0) (h : coalesce r = some r') :
    r'.At 0 ∧ r'.content = r.content ∧ r'.callback = r.callback ∧ r'.deferred = r.deferred ∧
      r'.sent = r.sent := by
  unfold coalesce at h
  split_ifs at h
  · obtain ⟨hat', hcontent, heq⟩ := WriteRequest.flatten_spec hat h
    rw [heq] at hcontent hat' ⊢
    exact ⟨hat', hcontent, rfl, rfl, rfl⟩
  · obtain ⟨hat', hcontent, heq⟩ := WriteRequest.coalescePrefix_spec hat h
    rw [heq] at hcontent hat' ⊢
    exact ⟨hat', hcontent, rfl, rfl, rfl⟩
  · cases h
    exact ⟨hat, rfl, rfl, rfl, rfl⟩

/-- What a submission leaves, whatever becomes of it. -/
theorem meets_submit (hk : k.Sound) (h : Native c) (kind : Outgoing) (hsent : r.sent = 0)
    (hwaits : r.deferred = false) (outer : List WriteCallback) (howed : c.log.owed = r.callback.toList ++ outer)
    (hadmissible : Admissible c (kind, r.content)) :
    (submit k kind r c).Meets (contract Z) fun result c' =>
      Submitted c kind r.content r.callback outer result c' := by
  unfold submit
  simp only [Program.meets_bind, Program.meets_get, Program.meets_ite, Program.meets_pure]
  split
  · exact .refused h _ _ _ _ (.inr ⟨_, by decide, rfl⟩)
  · next hwritable =>
    simp only [writable, Bool.not_eq_false, Bool.and_eq_true,
      Bool.not_eq_eq_eq_not, Bool.not_true] at hwritable
    obtain ⟨⟨hopen, -⟩, hfd⟩ := hwritable
    cases hprepare : r.prepare with
    | none =>
      simp only [Program.meets_ite, Program.meets_pure]
      split
      · exact .refused h _ _ _ _ (.inr ⟨_, by decide, rfl⟩)
      · exact .refused h _ _ _ _ (.inl rfl)
    | some r₁ =>
      obtain ⟨hat, hcontent, heq⟩ := WriteRequest.prepare_spec hprepare
      have hcallback : r₁.callback = r.callback := by rw [heq]
      have hdeferred : r₁.deferred = r.deferred := by rw [heq]
      have hsent₁ : r₁.sent = r.sent := by rw [heq]
      simp only [Program.meets_bind, Program.meets_ite, Program.meets_pure, meets_modifyLog]
      split
      · refine ⟨{ h with paid := ?_ }, { Rely.refl c with }, fun _ => .refl c, fun hg _ => hg, ?_,
          ?_, fun _ => rfl, ?_⟩
        · intro callback hfired
          exact (h.paid callback hfired).mono (List.subset_append_left _ _) (fun _ => id) le_rfl
            (List.prefix_refl _)
        · intro status hstatus
          cases hstatus
          decide
        · intro hasync
          exact absurd (NativeResult.status.inj hasync) (by decide)
        · intro _ callback hsome
          left
          apply List.mem_append_right
          rw [hcallback, hsome]
          exact List.mem_singleton_self _
      · split
        · exact .refused h _ _ _ _ (.inl rfl)
        · have hnext : ∀ r₂, (if c.transport.tls = true then coalesce r₁ else some r₁) = some r₂ →
              r₂.At 0 ∧ r₂.content = r₁.content ∧ r₂.callback = r₁.callback ∧
                r₂.deferred = r₁.deferred ∧ r₂.sent = r₁.sent := by
            intro r₂ hr₂
            split at hr₂
            · exact coalesce_spec hat hr₂
            · cases hr₂
              exact ⟨hat, rfl, rfl, rfl, rfl⟩
          cases hcoalesce : (if c.transport.tls = true then coalesce r₁ else some r₁) with
          | none => exact .refused h _ _ _ _ (.inl rfl)
          | some r₂ =>
            obtain ⟨hat₂, hcontent₂, hcallback₂, hdeferred₂, hsent₂⟩ := hnext r₂ hcoalesce
            simp only [Program.meets_bind, meets_transport, meets_modifyLog, Program.meets_pure]
            rw [← hcontent, ← hcallback, ← hcontent₂, ← hcallback₂]
            refine (meets_submitPrepared (r := { r₂ with serial := c.log.submitted.length })
              hk h hopen hfd { hat₂ with } (hsent₂.trans (hsent₁.trans hsent))
              (hdeferred₂.trans (hdeferred.trans hwaits)) rfl outer ?_ ?_).mono ?_
            · rw [howed, ← hcallback, ← hcallback₂]
            · show Admissible c (kind, r₂.content)
              rw [hcontent₂, hcontent]
              exact hadmissible
            · exact fun status c' haccepted => haccepted.submitted

end NativeTransport

end Eiows
