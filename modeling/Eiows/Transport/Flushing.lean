import Eiows.Transport.Calls

/-!
# Flushing the write queue

The layers below take as much as they like of what they are offered. The queue
follows, and requests are completed once their last bytes have left.
-/

namespace Eiows

open Interaction

variable {Z : Zlib}

/-- No callback runs, or callbacks may run. -/
def Connection.Calm (c : Connection Z) : Prop :=
  c.Guarded ∨ ∀ r ∈ c.transport.queue, r.deferred = false

/-- What a function leaves that calls no callbacks, unless it closes. -/
structure Works (c c' : Connection Z) : Prop extends Keeps c c' where
  calm : c.Calm → c'.Calm

theorem Works.refl {c : Connection Z} (h : Native c) : Works c c := ⟨.refl h, id⟩

theorem Works.trans {c c' c'' : Connection Z} (h : Works c c') (h' : Works c' c'') : Works c c'' :=
  ⟨h.toKeeps.trans h'.toKeeps, fun hcalm => h'.calm (h.calm hcalm)⟩

theorem Leaves.works {c c' : Connection Z} (h : Leaves none c c') (hc : Native c) : Works c c' :=
  ⟨h.keeps hc, fun _ => .inl h.settled.guarded⟩

/-- The flag `flushingWrites_` is not part of what a function keeps. -/
theorem Keeps.flushing {c c' : Connection Z} (h : Keeps c c') (flushing : Bool) :
    Keeps (c.mapTransport fun t => { t with flushingWrites := flushing })
      (c'.mapTransport fun t => { t with flushingWrites := flushing }) where
  native := { h.native with }
  rely := { h.rely with flushing := rfl }
  silent := h.silent
  owed := h.owed
  guarded := h.guarded

/-- While the transport is open, no request comes or goes, and the TLS shutdown does not go on. -/
def Untouched (c c' : Connection Z) : Prop :=
  c'.transport.closing = false → c'.transport.queue = c.transport.queue ∧
    c'.transport.tlsShutdownGenerated = c.transport.tlsShutdownGenerated

theorem Untouched.refl (c : Connection Z) : Untouched c c := fun _ => ⟨rfl, rfl⟩

theorem Untouched.of_closing {c c' : Connection Z} (hclosing : c'.transport.closing = true) :
    Untouched c c' := fun hopen => absurd (hclosing.symm.trans hopen) (by decide)

theorem Untouched.trans {c c' c'' : Connection Z} (h : Untouched c c') (h' : Untouched c' c'')
    (hrely : Rely c' c'') : Untouched c c'' := by
  intro hopen
  obtain ⟨hqueue, hgenerated⟩ := h (hrely.opened hopen)
  obtain ⟨hqueue', hgenerated'⟩ := h' hopen
  exact ⟨hqueue'.trans hqueue, hgenerated'.trans hgenerated⟩

/-- What `flushMemoryBIOOutput` leaves with its result. -/
structure Flushed (c : Connection Z) (result : Bool) (c' : Connection Z) : Prop
    extends Works c c' where
  closing : c'.transport.closing = !result
  untouched : Untouched c c'

/-- The head request has moved on by the bytes that count as written now. -/
structure Advanced (c c' : Connection Z) : Prop extends Works c c' where
  opened : c'.transport.closing = false
  committed : c'.transport.tlsCommittedPlaintext = 0
  sent : c'.transport.tls = true → c'.log.ciphertext = c'.log.descriptor
  started : ∀ r rest, c'.transport.queue = r :: rest → 0 < r.sent

namespace NativeTransport

variable {k : Callees Z} {c : Connection Z} {r : WriteRequest} {rest : List WriteRequest}

theorem meets_sendRaw {data : Bytes} {P : SendResult data.length → Connection Z → Prop}
    (h : Observed c) (huses : c.Usable)
    (haccepted : ∀ n pos le, P (.accepted n pos le)
      (c.mapLog fun log => { log with descriptor := log.descriptor ++ data.take n }))
    (hblocked : P .wouldBlock c) (hfailed : P .failed c) :
    (sendRaw data c).Meets (contract Z) P := by
  unfold sendRaw
  simp only [Program.meets_bind]
  refine meets_ask.mpr ⟨⟨h, fun _ => huses⟩, fun result _ => ?_⟩
  cases result with
  | accepted n pos le => exact haccepted n pos le
  | wouldBlock => exact hblocked
  | failed => exact hfailed

/-- A step that only moves ciphertext. -/
private theorem works_afterSend (h : Native c) (htls : c.transport.tls = true)
    (hopen : c.transport.closing = false) {sent : Bytes} (kept : Bytes) {bio : Bytes} (offset : ℕ)
    (hsplit : c.transport.tlsCiphertext.drop c.transport.tlsCiphertextOffset ++
      c.transport.nodeWriteBIO = sent ++ (kept.drop offset ++ bio)) :
    Works c (c.afterSend sent kept offset bio) where
  native := { h with toStable := h.toStable.sendCiphertext htls hopen h.notReporting hsplit }
  rely := { Rely.refl c with }
  silent := .refl c
  owed := rfl
  guarded := id
  calm := id

/-- Where ciphertext has been taken out of `nodeWriteBIO_`, and is lost. -/
private theorem meets_fail_drained (hk : k.Sound) (h : Native c) (bio : Bytes) :
    (fail k (c.mapTransport fun t => { t with nodeWriteBIO := bio })).Meets (contract Z)
      fun _ c' => Works c c' ∧ c'.transport.closing = true := by
  have hlost : Pausing ((c.mapTransport fun t => { t with nodeWriteBIO := bio }).mapTransport
      fun t => { t with reportingError := true }) :=
    ⟨⟨{ h.toStable with cipher := fun _ _ hreport => by cases hreport }, h.pendingClose, h.severed⟩,
      h.told⟩
  refine (meets_fail_lost hk hlost h.notReporting (h.driven h.active)).mono ?_
  rintro _ c' ⟨hleaves, hclosing⟩
  have hrely : Rely c (c.mapTransport fun t => { t with nodeWriteBIO := bio }) :=
    { Rely.refl c with }
  exact ⟨Leaves.works ⟨hleaves.settled, hrely.trans hleaves.rely, hleaves.silent, hleaves.owed⟩ h,
    hclosing⟩

theorem meets_flushCiphertext (hk : k.Sound) (h : Native c) (htls : c.transport.tls = true)
    (hopen : c.transport.closing = false) :
    (flushCiphertext k c).Meets (contract Z) fun result c' =>
      match result with
      | some result => Flushed c result c'
      | none => Flushed c true c' ∧
        c'.transport.tlsCiphertext.drop c'.transport.tlsCiphertextOffset = [] := by
  unfold flushCiphertext
  simp only [Program.meets_bind, meets_transport, Program.meets_ite, Program.meets_pure]
  split
  · next hleft =>
    refine meets_sendRaw h.toObserved (h.uses hopen) ?_ ?_ ?_
    · intro n pos le
      rw [List.length_drop] at le
      have hsplit : c.transport.tlsCiphertext.drop c.transport.tlsCiphertextOffset ++
          c.transport.nodeWriteBIO =
            (c.transport.tlsCiphertext.drop c.transport.tlsCiphertextOffset).take n ++
              (c.transport.tlsCiphertext.drop (c.transport.tlsCiphertextOffset + n) ++
                c.transport.nodeWriteBIO) := by
        rw [← List.append_assoc, ← List.drop_drop, List.take_append_drop]
      simp only [Program.meets_bind, Program.meets_ite, meets_modifyTransport, Program.meets_pure]
      split
      · next hall =>
        have hdone : c.transport.tlsCiphertext.drop (c.transport.tlsCiphertextOffset + n) =
            ([] : Bytes).drop 0 := by
          rw [hall, List.drop_length]
          rfl
        rw [hdone] at hsplit
        exact ⟨⟨works_afterSend h htls hopen _ _ hsplit, hopen, fun _ => ⟨rfl, rfl⟩⟩, rfl⟩
      · exact ⟨works_afterSend h htls hopen _ _ hsplit, hopen, fun _ => ⟨rfl, rfl⟩⟩
    · exact ⟨.refl h, hopen, .refl c⟩
    · refine Program.meets_bind.mpr ((meets_fail hk h).mono ?_)
      rintro _ c' ⟨hleaves, hclosing⟩
      exact ⟨hleaves.works h, hclosing, .of_closing hclosing⟩
  · next hnone => exact ⟨⟨.refl h, hopen, .refl c⟩, List.drop_eq_nil_of_le (by omega)⟩

theorem meets_drainOutput (hk : k.Sound) (h : Native c) (htls : c.transport.tls = true)
    (hopen : c.transport.closing = false)
    (hsent : c.transport.tlsCiphertext.drop c.transport.tlsCiphertextOffset = []) :
    (drainOutput k c).Meets (contract Z) fun result c' =>
      match result with
      | .inl result => Flushed c result c'
      | .inr () => Flushed c true c' ∧
        c'.transport.tlsCiphertext.drop c'.transport.tlsCiphertextOffset = [] := by
  unfold drainOutput
  simp only [Program.meets_bind, meets_transport, Program.meets_ite, Program.meets_pure,
    meets_modifyTransport]
  split
  · exact ⟨.refl h, hopen, .refl c⟩
  · set batch := c.transport.nodeWriteBIO.take TLS_OUTPUT_BATCH_SIZE with hbatch
    have hsplit : ∀ n, c.transport.tlsCiphertext.drop c.transport.tlsCiphertextOffset ++
        c.transport.nodeWriteBIO = batch.take n ++
          (batch.drop n ++ c.transport.nodeWriteBIO.drop TLS_OUTPUT_BATCH_SIZE) := by
      intro n
      rw [hsent, List.nil_append, ← List.append_assoc, List.take_append_drop, hbatch,
        List.take_append_drop]
    have huses := h.uses hopen
    refine meets_ask.mpr ⟨⟨{ h.toObserved with }, fun _ => { huses with }⟩, fun drained _ => ?_⟩
    split
    · refine (meets_fail_drained hk h _).mono ?_
      rintro _ c' ⟨hworks, hclosing⟩
      exact ⟨hworks, hclosing, .of_closing hclosing⟩
    · refine meets_sendRaw { h.toObserved with } { huses with } ?_ ?_ ?_
      · intro n pos le
        simp only [Program.meets_ite, Program.meets_bind, meets_modifyTransport, Program.meets_pure]
        split
        · next hall =>
          have hrest : batch.drop n =
              c.transport.tlsCiphertext.drop c.transport.tlsCiphertextOffset := by
            rw [hall, List.drop_length, hsent]
          have hsplit := hsplit n
          rw [hrest] at hsplit
          exact ⟨⟨works_afterSend h htls hopen _ _ hsplit, hopen, fun _ => ⟨rfl, rfl⟩⟩, hsent⟩
        · exact ⟨works_afterSend h htls hopen _ _ (hsplit n), hopen, fun _ => ⟨rfl, rfl⟩⟩
      · have hworks := works_afterSend h htls hopen batch 0 (hsplit 0)
        rw [List.take_zero, Connection.afterSend, List.append_nil] at hworks
        exact ⟨hworks, hopen, fun _ => ⟨rfl, rfl⟩⟩
      · refine Program.meets_bind.mpr ((meets_fail_drained hk h _).mono ?_)
        rintro _ c' ⟨hworks, hclosing⟩
        exact ⟨hworks, hclosing, .of_closing hclosing⟩

/-- All ciphertext is offered to the descriptor, and what it does not take is kept. -/
theorem meets_flushMemoryBIOOutput (hk : k.Sound) (h : Native c) (htls : c.transport.tls = true)
    (hopen : c.transport.closing = false) :
    (flushMemoryBIOOutput k c).Meets (contract Z) fun result c' => Flushed c result c' := by
  unfold flushMemoryBIOOutput
  simp only [Program.meets_bind]
  refine (meets_flushCiphertext hk h htls hopen).mono ?_
  rintro (_ | result) c' hresult
  · refine Program.meets_iterate (I := fun _ c' => Flushed c true c' ∧
      c'.transport.tlsCiphertext.drop c'.transport.tlsCiphertextOffset = []) ?_ _ hresult
    rintro - c₁ ⟨hflushed, hsent⟩
    refine (meets_drainOutput hk hflushed.native (hflushed.rely.tls.trans htls) hflushed.closing
      hsent).mono ?_
    rintro (result | _) c₂ hnext
    · exact ⟨hflushed.toWorks.trans hnext.toWorks, hnext.closing,
        hflushed.untouched.trans hnext.untouched hnext.rely⟩
    · exact ⟨⟨hflushed.toWorks.trans hnext.1.toWorks, hnext.1.closing,
        hflushed.untouched.trans hnext.1.untouched hnext.1.rely⟩, hnext.2⟩
  · exact hresult

/-- A step that changes the head request only. -/
private theorem works_moveHead (h : Native c) (hqueue : c.transport.queue = r :: rest)
    {r' : WriteRequest} (hmoved : r.Moved r') {pending committed : ℕ} {kernel plaintext : Bytes}
    {staged : List (ℕ × ℕ)} (hpending : pending ≤ c.transport.pendingBytes)
    (hstable : Stable (c.moveHead r' pending committed kernel plaintext staged)) :
    Works c (c.moveHead r' pending committed kernel plaintext staged) where
  native := { h with toStable := hstable }
  rely := Connection.rely_moveHead hqueue hmoved hpending
  silent := .refl c
  owed := rfl
  guarded := id
  calm := by
    rintro (hguarded | hnone)
    · exact .inl hguarded
    · right
      intro r₁ hr₁
      rcases List.mem_cons.mp hr₁ with rfl | hmem
      · rw [hmoved.deferred]
        exact hnone r (hqueue ▸ List.mem_cons_self)
      · exact hnone r₁ (List.mem_of_mem_tail hmem)

/-- `advance` or `commitTLS`, and the bytes pending, after a write. -/
def progress (tls : Bool) (length : ℕ) (c : Connection Z) : Connection Z :=
  (c.mapTransport (modifyHead fun r => if tls then r.commitTLS length else r.advance length)).mapTransport
    fun t => { t with pendingBytes := t.pendingBytes - min t.pendingBytes length }

/-- What `writeTCP` and `writeTLS` leave with their result. -/
def Wrote (tls : Bool) (c : Connection Z) (written : ℤ) (c' : Connection Z) : Prop :=
  (written ≤ 0 → Works c c') ∧ (0 < written → Advanced c (progress tls written.toNat c'))

theorem meets_writeTCP (h : Native c) (htls : c.transport.tls = false)
    (hopen : c.transport.closing = false) (hqueue : c.transport.queue = r :: rest) :
    (writeTCP r c).Meets (contract Z) fun written c' => Wrote false c written c' := by
  have hstable := h.toStable
  have hplain := hstable.plain htls
  have hat := hstable.head_at hopen hqueue
  have hhead := hstable.head_pending hqueue
  unfold writeTCP
  simp only [Program.meets_bind, meets_transport]
  refine meets_ask.mpr ⟨⟨h.toObserved, fun _ => h.uses hopen⟩, fun result _ => ?_⟩
  cases result with
  | wouldBlock => exact ⟨fun _ => .refl h, fun hpos => absurd hpos (by decide)⟩
  | failed => exact ⟨fun _ => .refl h, fun hpos => absurd hpos (by decide)⟩
  | accepted n pos le =>
    simp only [Program.meets_bind, meets_modifyLog, Program.meets_pure]
    refine ⟨fun hle => absurd hle (by omega), fun _ => ?_⟩
    have hdata := (hat.remainingIovecs hstable.vectors).1
    set data := (r.remainingIovecs c.transport.maximumIOVectors).flatten
    have hshort := hdata.length_le
    rw [List.length_drop] at hshort
    have hfits : r.sent + n ≤ r.content.length := by omega
    have hlength : (data.take n).length = n := by rw [List.length_take]; omega
    have hmoved : r.Moved (r.advance n) := ⟨rfl, rfl, rfl, rfl, rfl⟩
    have hnext : (r.advance n).At ((r.advance n).sent + 0) := by
      rw [hplain] at hat
      exact { hat.advanceCursor _ hfits with }
    have hpending : c.transport.pendingBytes - min c.transport.pendingBytes n =
        (r.advance n).remainingBytes + (rest.map (·.remainingBytes)).sum := by
      have hbytes := hat.bytes
      have hremaining : (r.advance n).remainingBytes = r.bytes - (r.sent + n) := rfl
      have hmin : min c.transport.pendingBytes n = n := by
        unfold WriteRequest.remainingBytes at hhead
        exact min_eq_right (by omega)
      rw [hremaining, hmin, hhead]
      unfold WriteRequest.remainingBytes
      omega
    have hstate : progress false n
        (c.mapLog fun log => { log with kernel := log.kernel ++ data.take n }) =
          c.moveHead (r.advance n) (c.transport.pendingBytes - min c.transport.pendingBytes n) 0
            (c.log.kernel ++ data.take n) c.log.plaintext c.log.staged := by
      simp [progress, Connection.mapTransport, Connection.mapLog, modifyHead, hqueue,
        Connection.moveHead, hplain]
    have hmove : Stable (c.moveHead (r.advance n)
        (c.transport.pendingBytes - min c.transport.pendingBytes n) 0
          (c.log.kernel ++ data.take n) c.log.plaintext c.log.staged) := by
      apply hstable.moveHead hopen hqueue hmoved (data.take n)
      · exact (List.take_prefix _ _).trans hdata
      · simp [htls, Connection.taken]
      · exact hnext
      · rw [hlength, hplain]
        rfl
      · exact hpending
      · exact fun _ => rfl
      · exact fun _ => id
      · exact hstable.cuts
      · intro htls'
        rw [htls] at htls'
        cases htls'
    have hresult : progress false ((n : ℤ)).toNat
        (c.mapLog fun log => { log with kernel := log.kernel ++ data.take n }) =
          c.moveHead (r.advance n) (c.transport.pendingBytes - min c.transport.pendingBytes n) 0
            (c.log.kernel ++ data.take n) c.log.plaintext c.log.staged := hstate
    rw [hresult]
    refine ⟨works_moveHead h hqueue hmoved (Nat.sub_le _ _) hmove, hopen, rfl, ?_, ?_⟩
    · intro htls'
      exact absurd (htls.symm.trans htls') (by decide)
    · intro r₁ rest₁ hcons
      obtain ⟨rfl, -⟩ := List.cons.inj hcons
      exact Nat.lt_of_lt_of_le pos (Nat.le_add_left _ _)

/-- What the loop of `writeTLS` keeps. -/
private theorem meets_stagePlaintext (h : Native c) (htls : c.transport.tls = true)
    (hopen : c.transport.closing = false) (batchRemaining : ℕ) :
    (stagePlaintext batchRemaining c).Meets (contract Z) fun _ c' =>
      Works c c' ∧ c'.transport.closing = false := by
  have hstable := h.toStable
  unfold stagePlaintext
  simp only [Program.meets_bind, meets_transport]
  cases hqueue : c.transport.queue with
  | nil => exact ⟨.refl h, hopen⟩
  | cons r rest =>
    have hat := hstable.head_at hopen hqueue
    have hproduce : ∀ ciphertext, Works c ((c.mapTransport fun t =>
        { t with nodeWriteBIO := t.nodeWriteBIO ++ ciphertext }).mapLog
          fun log => { log with ciphertext := log.ciphertext ++ ciphertext }) := fun ciphertext =>
      ⟨⟨{ h with toStable := hstable.produce hopen ciphertext }, { Rely.refl c with }, .refl c, rfl, id⟩,
        id⟩
    simp only [Program.meets_ite, Program.meets_pure, Program.meets_bind]
    split
    · exact ⟨.refl h, hopen⟩
    · refine meets_ask.mpr ⟨⟨h.toObserved, fun _ => h.uses hopen⟩, fun result _ => ?_⟩
      cases result with
      | blocked onRead ciphertext =>
        exact ⟨(hproduce ciphertext).trans ⟨⟨{ (hproduce ciphertext).native with },
          { Rely.refl _ with }, .refl _, rfl, id⟩, id⟩, hopen⟩
      | failed ciphertext => exact ⟨hproduce ciphertext, hopen⟩
      | accepted n pos le ciphertext =>
        have hfront := hat.remainingData.1
        set batch := r.remainingData.take batchRemaining
        have hbatch : batch <+: r.content.drop (r.sent + c.transport.tlsCommittedPlaintext) :=
          (List.take_prefix _ _).trans hfront
        have hshort := hbatch.length_le
        have hoffset := hat.offset_le
        rw [List.length_drop] at hshort
        have hlength : (batch.take n).length = n := by rw [List.length_take]; omega
        have hmoved : r.Moved (r.stageTLS n) := ⟨rfl, rfl, rfl, rfl, rfl⟩
        have hworks := hproduce ciphertext
        set c₁ := (c.mapTransport fun t =>
          { t with nodeWriteBIO := t.nodeWriteBIO ++ ciphertext }).mapLog
            fun log => { log with ciphertext := log.ciphertext ++ ciphertext } with hc₁
        have hqueue₁ : c₁.transport.queue = r :: rest := hqueue
        have hmove : Stable (c₁.moveHead (r.stageTLS n) c.transport.pendingBytes
            (c.transport.tlsCommittedPlaintext + n) c.log.kernel (c.log.plaintext ++ batch.take n)
              (c.log.staged ++ [(c.log.plaintext.length + n,
                (c.log.ciphertext ++ ciphertext).length)])) := by
          have htaken : c₁.taken = c.log.plaintext := by
            show (if c.transport.tls then c.log.plaintext else c.log.kernel) = c.log.plaintext
            rw [if_pos htls]
          apply hworks.native.toStable.moveHead hopen hqueue₁ hmoved (batch.take n)
          · exact (List.take_prefix _ _).trans hbatch
          · rw [htaken]
            exact if_pos htls
          · have hnext := hat.advanceCursor n (by omega)
            rw [Nat.add_assoc] at hnext
            exact hnext
          · rw [hlength]
            exact (Nat.add_assoc _ _ _).symm
          · rw [hstable.head_pending hqueue]
            rfl
          · intro htls'
            exact absurd (htls.symm.trans htls') (by decide)
          · exact List.subset_append_left _ _
          · intro p hp
            rcases List.mem_append.mp hp with hold | hnew
            · exact hworks.native.cuts p hold
            · rw [List.mem_singleton.mp hnew]
              exact le_rfl
          · intro _ _
            refine ⟨(c.log.ciphertext ++ ciphertext).length, List.mem_append_right _ ?_⟩
            have hlonger : (c.log.plaintext ++ batch.take n).length = c.log.plaintext.length + n := by
              rw [List.length_append, hlength]
            rw [htaken, hlonger]
            exact List.mem_singleton_self _
        have hstep := works_moveHead hworks.native hqueue₁ hmoved le_rfl hmove
        have hstate : ((c₁.mapLog fun log => { log with
            plaintext := log.plaintext ++ batch.take n
            staged := log.staged ++ [(log.plaintext.length + n, log.ciphertext.length)]
              }).mapTransport (modifyHead (·.stageTLS n))) =
            c₁.moveHead (r.stageTLS n) c.transport.pendingBytes c.transport.tlsCommittedPlaintext
              c.log.kernel (c.log.plaintext ++ batch.take n)
                (c.log.staged ++ [(c.log.plaintext.length + n,
                  (c.log.ciphertext ++ ciphertext).length)]) := by
          simp [hc₁, Connection.mapTransport, Connection.mapLog, modifyHead, hqueue,
            Connection.moveHead]
        simp only [produce, Program.meets_bind, meets_modifyTransport, meets_modifyLog,
          Program.meets_pure]
        rw [← hc₁, hstate]
        exact ⟨(hworks.trans hstep).trans ⟨⟨{ hstep.native with }, { Rely.refl _ with }, .refl _,
          rfl, id⟩, id⟩, hopen⟩

theorem meets_commitPlaintext (hk : k.Sound) (h : Native c) (htls : c.transport.tls = true)
    (hopen : c.transport.closing = false) :
    (commitPlaintext k c).Meets (contract Z) fun written c' => Wrote true c written c' := by
  unfold commitPlaintext
  simp only [Program.meets_bind, Program.meets_ite, meets_transport, Program.meets_pure,
    meets_modifyTransport]
  refine (meets_flushMemoryBIOOutput hk h htls hopen).mono ?_
  intro result c' hflushed
  have hstable := hflushed.native.toStable
  split
  · exact ⟨fun _ => hflushed.toWorks, fun hpos => absurd hpos (by decide)⟩
  · next hresult =>
    have hopen' : c'.transport.closing = false := by
      rw [hflushed.closing]
      simpa using hresult
    split
    · exact ⟨fun _ => hflushed.toWorks, fun hpos => absurd hpos (by decide)⟩
    · next hsent =>
      refine ⟨fun hle => ?_, fun hpos => ?_⟩
      · have hzero : c'.transport.tlsCommittedPlaintext = 0 := by omega
        have hsame : (c'.mapTransport fun t => { t with tlsCommittedPlaintext := 0 }) = c' := by
          simp [Connection.mapTransport, ← hzero]
        rw [hsame]
        exact hflushed.toWorks
      · have hsent : c'.log.ciphertext = c'.log.descriptor := by
          have hcipher := hstable.cipher (hflushed.rely.tls.trans htls) hopen'
            hflushed.native.notReporting
          simp only [hasTLSOutput, Bool.or_eq_true, decide_eq_true_eq, not_or, not_not, not_lt,
            ne_eq] at hsent
          rw [List.drop_eq_nil_of_le hsent.1, hsent.2] at hcipher
          simpa using hcipher
        cases hqueue : c'.transport.queue with
        | nil =>
          have hidle := hstable.idle hopen' hqueue
          omega
        | cons r rest =>
          have hat := hstable.head_at hopen' hqueue
          have hhead := hstable.head_pending hqueue
          have hoffset := hat.offset_le
          have hbytes := hat.bytes
          set n := c'.transport.tlsCommittedPlaintext with hn
          have hmoved : r.Moved (r.commitTLS n) := ⟨rfl, rfl, rfl, rfl, rfl⟩
          have hmin : min c'.transport.pendingBytes n = n := by
            unfold WriteRequest.remainingBytes at hhead
            exact min_eq_right (by omega)
          have hmove : Stable (c'.moveHead (r.commitTLS n)
              (c'.transport.pendingBytes - min c'.transport.pendingBytes n) 0 c'.log.kernel
                c'.log.plaintext c'.log.staged) := by
            apply hstable.moveHead hopen' hqueue hmoved []
            · exact List.nil_prefix
            · rw [List.append_nil]
              rfl
            · exact { hat with }
            · rfl
            · rw [hmin, hhead]
              unfold WriteRequest.remainingBytes WriteRequest.commitTLS
              simp only
              omega
            · exact fun _ => rfl
            · exact fun _ => id
            · exact hstable.cuts
            · rw [List.append_nil]
              exact fun htls' => hstable.last htls' hopen'
          have hstate : progress true ((n : ℤ)).toNat
              (c'.mapTransport fun t => { t with tlsCommittedPlaintext := 0 }) =
                c'.moveHead (r.commitTLS n)
                  (c'.transport.pendingBytes - min c'.transport.pendingBytes n) 0 c'.log.kernel
                    c'.log.plaintext c'.log.staged := by
            simp [progress, Connection.mapTransport, modifyHead, hqueue, Connection.moveHead]
          rw [hstate]
          refine ⟨hflushed.toWorks.trans (works_moveHead hflushed.native hqueue hmoved
            (Nat.sub_le _ _) hmove), hopen', rfl, fun _ => hsent, ?_⟩
          intro r₁ rest₁ hcons
          obtain ⟨rfl, -⟩ := List.cons.inj hcons
          show 0 < r.sent + n
          omega

theorem Wrote.after {c' : Connection Z} {tls : Bool} {written : ℤ} {c'' : Connection Z}
    (hworks : Works c c') (h : Wrote tls c' written c'') : Wrote tls c written c'' :=
  ⟨fun hle => hworks.trans (h.1 hle), fun hpos =>
    { h.2 hpos with toWorks := hworks.trans (h.2 hpos).toWorks }⟩

theorem meets_writeTLS (hk : k.Sound) (h : Native c) (htls : c.transport.tls = true)
    (hopen : c.transport.closing = false) :
    (writeTLS k c).Meets (contract Z) fun written c' => Wrote true c written c' := by
  unfold writeTLS
  simp only [Program.meets_bind, Program.meets_ite, meets_transport, Program.meets_pure]
  split
  · exact meets_commitPlaintext hk h htls hopen
  · refine (Program.meets_iterate (I := fun _ c' => Works c c' ∧ c'.transport.closing = false)
      (P := fun _ c' => Works c c' ∧ c'.transport.closing = false) ?_ _ ⟨.refl h, hopen⟩).mono ?_
    · rintro batchRemaining c' ⟨hworks, hopen'⟩
      refine (meets_stagePlaintext hworks.native (hworks.rely.tls.trans htls) hopen'
        batchRemaining).mono ?_
      rintro (_ | _) c'' ⟨hnext, hopen''⟩
      · exact ⟨hworks.trans hnext, hopen''⟩
      · exact ⟨hworks.trans hnext, hopen''⟩
    · rintro staged c' ⟨hworks, hopen'⟩
      have htls' := hworks.rely.tls.trans htls
      split
      · exact ⟨fun _ => hworks, fun hpos => absurd hpos (by decide)⟩
      · split
        · refine (meets_flushMemoryBIOOutput hk hworks.native htls' hopen').mono ?_
          intro result c'' hflushed
          split
          · exact ⟨fun _ => hworks.trans hflushed.toWorks, fun hpos => absurd hpos (by decide)⟩
          · exact ⟨fun _ => hworks.trans hflushed.toWorks, fun hpos => absurd hpos (by decide)⟩
        · exact (meets_commitPlaintext hk hworks.native htls' hopen').mono
            fun _ _ hwrote => hwrote.after hworks

/-- The completion of a request whose bytes have all been written. -/
theorem meets_completeHeadWrite (hk : k.Sound) (h : Native c) (hcalm : c.Calm)
    (hopen : c.transport.closing = false) (hcommitted : c.transport.tlsCommittedPlaintext = 0)
    (hsent : c.transport.tls = true → c.log.ciphertext = c.log.descriptor)
    (hqueue : c.transport.queue = r :: rest) (hfull : r.remainingBytes = 0) (hstarted : 0 < r.sent) :
    (completeHeadWrite k 0 c).Meets (contract Z) fun _ c' => Keeps c c' ∧ c'.Calm := by
  have hcounted := h.counted r (hqueue ▸ List.mem_cons_self)
  have hwhole : r.sent = r.bytes := by
    unfold WriteRequest.remainingBytes at hfull
    omega
  have hpending : c.transport.pendingBytes = (rest.map (·.remainingBytes)).sum := by
    have hhead := h.head_pending hqueue
    omega
  have hstable := h.toStable.completeHead hopen hqueue hwhole (by omega) hcommitted hsent
  have hkeeps : Keeps c (c.afterHead r 0 (rest.map (·.remainingBytes)).sum) :=
    ⟨{ h with toStable := hstable }, h.toStable.rely_afterHead hqueue 0, .refl c, rfl, id⟩
  rw [← hpending] at hkeeps
  have hcalm' : (c.afterHead r 0 c.transport.pendingBytes).Calm := by
    rcases hcalm with hguarded | hnone
    · exact .inl hguarded
    · exact .inr fun r' hr' => hnone r' (List.mem_of_mem_tail hr')
  unfold completeHeadWrite
  simp only [Program.meets_bind, meets_transport, hqueue, meets_modifyTransport, meets_modifyLog,
    Program.meets_ite, Program.meets_pure]
  rcases hcalm with hguarded | hnone
  · have hsettled := hkeeps.native.settled (hkeeps.guarded hguarded)
    apply meets_invoke hk
    · exact hsettled
    · intro c' hleaves
      exact ⟨hkeeps.trans (Leaves.keeps hleaves hkeeps.native), .inl hleaves.settled.guarded⟩
  · have hdeferred := hnone r (hqueue ▸ List.mem_cons_self)
    have hown : r.ownCallback = none := by simp [WriteRequest.ownCallback, hdeferred]
    rw [if_neg (by rw [hdeferred]; decide)]
    simp only [Connection.afterHead, hown, Option.map_none, Option.toList_none,
      List.append_nil] at hkeeps hcalm'
    exact ⟨hkeeps, hcalm'⟩

/-- The result of a write is accounted for. -/
theorem meets_accountWrite (hk : k.Sound) {tls : Bool} {written : ℤ} {c' : Connection Z}
    (hwrote : Wrote tls c written c') (hcalm : c.Calm) :
    (accountWrite k tls written c').Meets (contract Z) fun result c'' =>
      match result with
      | .inl true => Keeps c c''
      | .inl false => Keeps (c.mapTransport fun t => { t with flushingWrites := false }) c''
      | .inr () => Keeps c c'' ∧ c''.Calm := by
  unfold accountWrite
  simp only [Program.meets_bind, Program.meets_ite, Program.meets_pure, meets_modifyTransport,
    meets_transport]
  split
  · next hpos =>
    have hadvanced := hwrote.2 hpos
    have hcalm' := hadvanced.calm hcalm
    change if (progress tls written.toNat c').transport.queue.head?.map (·.remainingBytes) = some 0
      then (completeHeadWrite k 0 (progress tls written.toNat c')).Meets (contract Z) fun _ c'' =>
        Keeps c c'' ∧ c''.Calm
      else Keeps c (progress tls written.toNat c') ∧ (progress tls written.toNat c').Calm
    split
    · next hfull =>
      cases hqueue : (progress tls written.toNat c').transport.queue with
      | nil =>
        rw [hqueue] at hfull
        cases hfull
      | cons r rest =>
        rw [hqueue] at hfull
        refine (meets_completeHeadWrite hk hadvanced.native hcalm' hadvanced.opened
          hadvanced.committed hadvanced.sent hqueue (Option.some.inj hfull)
            (hadvanced.started r rest hqueue)).mono ?_
        rintro _ c'' ⟨hkeeps, hcalm''⟩
        exact ⟨hadvanced.toKeeps.trans hkeeps, hcalm''⟩
    · exact ⟨hadvanced.toKeeps, hcalm'⟩
  · next hnonpos =>
    have hworks := hwrote.1 (by omega)
    split
    · exact hworks.toKeeps
    · have hkeeps := hworks.toKeeps.flushing false
      refine (meets_fail hk hkeeps.native).mono ?_
      rintro _ c'' ⟨hleaves, -⟩
      exact hkeeps.trans (hleaves.keeps hkeeps.native)

theorem meets_flushHead (hk : k.Sound) (h : Native c) (hcalm : c.Calm) :
    (flushHead k c).Meets (contract Z) fun result c' =>
      match result with
      | .inl true => Keeps c c'
      | .inl false => Keeps (c.mapTransport fun t => { t with flushingWrites := false }) c'
      | .inr () => Keeps c c' ∧ c'.Calm := by
  unfold flushHead
  simp only [Program.meets_bind, meets_transport]
  cases hqueue : c.transport.queue with
  | nil => exact .refl h
  | cons r rest =>
    simp only [Program.meets_ite, Program.meets_pure, Program.meets_bind]
    split
    · exact .refl h
    · next hopen =>
      have hopen : c.transport.closing = false := by simpa using hopen
      split
      · next htls =>
        refine (meets_writeTLS hk h htls hopen).mono fun written c' hwrote => ?_
        exact meets_accountWrite hk hwrote hcalm
      · next htls =>
        refine (meets_writeTCP h (by simpa using htls) hopen hqueue).mono fun written c' hwrote => ?_
        exact meets_accountWrite hk hwrote hcalm

/-- The loop of `flushWrites` ends with the flag reset. -/
theorem meets_flushQueue (hk : k.Sound) (h : Native c) (hcalm : c.Calm)
    (hflushing : c.transport.flushingWrites = false) :
    (flushQueue k c).Meets (contract Z) fun _ c' => Keeps c c' := by
  have hsame : (c.mapTransport fun t => { t with flushingWrites := false }) = c := by
    simp [Connection.mapTransport, ← hflushing]
  unfold flushQueue
  simp only [Program.meets_bind, meets_modifyTransport, Program.meets_ite, Program.meets_pure,
    meets_transport]
  set c₁ := c.mapTransport fun t => { t with flushingWrites := true } with hc₁
  have hreset : (c₁.mapTransport fun t => { t with flushingWrites := false }) = c := hsame
  refine (Program.meets_iterate (I := fun _ c' => Keeps c₁ c' ∧ c'.Calm)
    (P := fun result c' =>
      if result = true then Keeps c₁ c'
      else Keeps c c') ?_ _ ⟨.refl { h with }, hcalm⟩).mono ?_
  · rintro - c' ⟨hkeeps, hcalm'⟩
    refine (meets_flushHead hk hkeeps.native hcalm').mono ?_
    rintro ((_ | _) | _) c'' hnext
    · rw [← hreset]
      exact (hkeeps.flushing false).trans hnext
    · exact hkeeps.trans hnext
    · exact ⟨hkeeps.trans hnext.1, hnext.2⟩
  · intro result c' hkeeps
    split
    · next hresult =>
      rw [if_pos hresult] at hkeeps
      have hreturn := hkeeps.flushing false
      rw [hreset] at hreturn
      split
      · refine (hk.maybeFinishPeerClose hreturn.native.peerClosing).mono fun _ c'' hclosed => ?_
        exact hreturn.trans hclosed.keeps
      · exact hreturn
    · next hresult =>
      rw [if_neg hresult] at hkeeps
      exact hkeeps

/-- `flushWrites`. -/
theorem meets_flushWrites (hk : k.Sound) (h : Native c) (hcalm : c.Calm) :
    (flushWrites k c).Meets (contract Z) fun _ c' => Keeps c c' := by
  unfold flushWrites
  simp only [Program.meets_bind, meets_transport, Program.meets_ite, Program.meets_pure]
  split
  · exact .refl h
  · next hready =>
    simp only [Bool.or_eq_true, not_or, Bool.not_eq_true] at hready
    obtain ⟨⟨hflushing, hopen⟩, -⟩ := hready
    split
    · next htls =>
      refine (meets_flushMemoryBIOOutput hk h htls hopen).mono fun result c' hflushed => ?_
      split
      · exact hflushed.toKeeps
      · split
        · exact hflushed.toKeeps
        · refine (meets_flushQueue hk hflushed.native (hflushed.calm hcalm)
            (hflushed.rely.flushing.trans hflushing)).mono fun _ c'' hkeeps => ?_
          exact hflushed.toKeeps.trans hkeeps
    · exact meets_flushQueue hk h hcalm hflushing

end NativeTransport

end Eiows
