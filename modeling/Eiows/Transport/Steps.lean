import Eiows.Transport.Invariant

/-!
# The steps of the write queue

Every function of the native transport changes its queue in a few ways: a request
enters it, moves on, is completed or is cancelled. Each of these steps keeps the
invariant.
-/

namespace Eiows

open Interaction

variable {Z : Zlib} {c c' : Connection Z} {r : WriteRequest} {rest : List WriteRequest}

@[simp] theorem Connection.mapTransport_transport (f : NativeTransport → NativeTransport) :
    (c.mapTransport f).transport = f c.transport := rfl

@[simp] theorem Connection.mapTransport_log (f : NativeTransport → NativeTransport) :
    (c.mapTransport f).log = c.log := rfl

@[simp] theorem Connection.mapLog_transport (f : Log → Log) :
    (c.mapLog f).transport = c.transport := rfl

@[simp] theorem Connection.mapLog_log (f : Log → Log) : (c.mapLog f).log = f c.log := rfl

namespace Stable

/-- The cursor of the request at the head. -/
theorem head_at (h : Stable c) (hopen : c.transport.closing = false)
    (hqueue : c.transport.queue = r :: rest) : r.At (r.sent + c.transport.tlsCommittedPlaintext) :=
  h.head hopen r (by rw [hqueue]; rfl)

/-- The request at the head is the next one to be completed. -/
theorem head_serial (h : Stable c) (hqueue : c.transport.queue = r :: rest) :
    r.serial = c.log.completions.length := by
  have hserials := h.serials
  rw [hqueue, List.map_cons, List.length_cons, List.range'_succ] at hserials
  exact (List.cons.inj hserials).1

theorem head_submitted (h : Stable c) (hqueue : c.transport.queue = r :: rest) :
    c.log.submitted[c.log.completions.length]? = some ⟨r.content, r.callback⟩ := by
  have hwaiting := h.waiting
  rw [hqueue, List.map_cons] at hwaiting
  rw [← Nat.add_zero c.log.completions.length, ← List.getElem?_drop, hwaiting]
  rfl

/-- The bytes up to the end of the head request. -/
theorem bytesOf_succ (h : Stable c) (hqueue : c.transport.queue = r :: rest) :
    c.log.bytesOf (c.log.completions.length + 1) =
      c.log.bytesOf c.log.completions.length ++ r.content := by
  have hget := h.head_submitted hqueue
  rw [Log.bytesOf, List.take_add_one, hget]
  simp [Log.bytesOf]

/-- The pending bytes of the head request are among all pending bytes. -/
theorem head_pending (h : Stable c) (hqueue : c.transport.queue = r :: rest) :
    c.transport.pendingBytes = r.remainingBytes + (rest.map (·.remainingBytes)).sum := by
  rw [h.pending, hqueue]
  rfl

/-- The bytes behind those taken are the rest of the head request, and what follows. -/
theorem next_bytes (h : Stable c) (hopen : c.transport.closing = false)
    (hqueue : c.transport.queue = r :: rest) :
    ∃ later, c.log.submittedBytes =
      c.taken ++ r.content.drop (r.sent + c.transport.tlsCommittedPlaintext) ++ later := by
  have hposition := h.position hopen
  have hcomplete := h.complete hopen
  have hoffset := (h.head_at hopen hqueue).offset_le
  rw [hqueue] at hposition
  have hall : c.log.submittedBytes = c.log.bytesOf c.log.completed ++ r.content ++
      ((c.log.submitted.drop (c.log.completions.length + 1)).map (·.content)).flatten := by
    rw [hcomplete, ← h.bytesOf_succ hqueue, Log.bytesOf, ← List.flatten_append, ← List.map_append,
      List.take_append_drop]
    rfl
  have htaken : c.taken = c.log.bytesOf c.log.completed ++
      r.content.take (r.sent + c.transport.tlsCommittedPlaintext) := by
    have hfront := List.prefix_iff_eq_take.mp h.taken
    rw [hall, hposition] at hfront
    rw [hfront, List.append_assoc, Nat.add_assoc, List.take_length_add_append]
    exact congrArg _ (List.take_append_of_le_length hoffset)
  refine ⟨((c.log.submitted.drop (c.log.completions.length + 1)).map (·.content)).flatten, ?_⟩
  rw [hall, htaken]
  simp only [List.append_assoc, List.append_cancel_left_eq]
  rw [← List.append_assoc (r.content.take _), List.take_append_drop]

/-- The layer below may take some of the next bytes. -/
theorem taken_append (h : Stable c) (hopen : c.transport.closing = false)
    (hqueue : c.transport.queue = r :: rest) {data : Bytes}
    (hdata : data <+: r.content.drop (r.sent + c.transport.tlsCommittedPlaintext)) :
    c.taken ++ data <+: c.log.submittedBytes := by
  obtain ⟨later, hlater⟩ := h.next_bytes hopen hqueue
  rw [hlater, List.append_assoc]
  exact (List.prefix_append_right_inj _).mpr (hdata.trans (List.prefix_append _ _))

end Stable

/-- The bytes of a frame stay handed over. -/
theorem Log.Paid.mono {log log' : Log} {callback : WriteCallback} (h : log.Paid callback)
    (hempty : log.empty ⊆ log'.empty) (hhanded : log.handed ⊆ log'.handed)
    (hcompleted : log.completed ≤ log'.completed) (hsubmitted : log.submitted <+: log'.submitted) :
    log'.Paid callback := by
  rcases h with hmem | hmem | ⟨n, hn, submission, hget, hcallback⟩
  · exact .inl (hempty hmem)
  · exact .inr (.inl (hhanded hmem))
  · obtain ⟨later, hlater⟩ := hsubmitted
    refine .inr (.inr ⟨n, by omega, submission, ?_, hcallback⟩)
    rw [← hlater, List.getElem?_append_left (List.getElem?_eq_some_iff.mp hget).1]
    exact hget

theorem Log.settle_eq {callback : Option WriteCallback} {outer : List WriteCallback} {log : Log}
    (howed : log.owed = callback.toList ++ outer) :
    log.settle callback = { log with owed := outer } := by
  cases callback with
  | none =>
    have howed : log.owed = outer := howed
    rw [← howed]
    rfl
  | some callback => simp [Log.settle, howed]

/-- The owner of a callback changes. -/
theorem Connection.mapLog_settle {callback : Option WriteCallback} (outer : List WriteCallback)
    (howed : c.log.owed = callback.toList ++ outer) :
    c.mapLog (Log.settle callback) = c.mapLog fun log => { log with owed := outer } := by
  unfold Connection.mapLog
  rw [Log.settle_eq howed]

theorem mapLog_fire_none (ok : Bool) : c.mapLog (Log.fire none ok) = c := by
  simp [Connection.mapLog, Log.fire]

/-- The callback that leaves the queue with a request. -/
def WriteRequest.ownCallback (r : WriteRequest) : Option WriteCallback :=
  if r.deferred then r.callback else none

theorem deferredCallbacks_cons (r : WriteRequest) (rest : List WriteRequest) :
    deferredCallbacks (r :: rest) = r.ownCallback.toList ++ deferredCallbacks rest := by
  unfold deferredCallbacks WriteRequest.ownCallback
  by_cases hdeferred : r.deferred = true
  · rw [List.filter_cons_of_pos hdeferred, if_pos hdeferred]
    cases hcallback : r.callback with
    | none => rw [List.filterMap_cons_none hcallback]; rfl
    | some callback => rw [List.filterMap_cons_some hcallback]; rfl
  · rw [List.filter_cons_of_neg hdeferred, if_neg hdeferred]
    rfl

private theorem map_fst_callback (callback : Option WriteCallback) (ok : Bool) :
    ((callback.map (·, ok)).toList).map (·.1) = callback.toList := by
  cases callback <;> rfl

/-- The state after the head request has left the queue with a status. -/
def Connection.afterHead (c : Connection Z) (r : WriteRequest) (status : ℤ) (pending : ℕ) :
    Connection Z :=
  { c with
    transport := { c.transport with queue := c.transport.queue.tail, pendingBytes := pending }
    log := { c.log with
      completions := c.log.completions ++ [(r.serial, status)]
      fired := c.log.fired ++ (r.ownCallback.map (·, decide (0 ≤ status))).toList } }

/-- A request leaves the queue, and the invariant holds again where the streams
have been looked after. -/
theorem Stable.afterHead (h : Stable c) (hqueue : c.transport.queue = r :: rest) {status : ℤ}
    (hobserved : ∃ cancelled, (c.log.completions ++ [(r.serial, status)]).map (·.2) =
      List.replicate (c.afterHead r status 0).log.completed 0 ++ cancelled ∧
        ∀ status ∈ cancelled, status < 0)
    (hwritten : (c.log.bytesOf (c.afterHead r status 0).log.completed).length ≤ c.taken.length)
    (hsent : c.transport.tls = true → ∀ n, 0 < n → n ≤ (c.afterHead r status 0).log.completed →
      ∃ cut, ((c.log.bytesOf n).length, cut) ∈ c.log.staged ∧ cut ≤ c.log.descriptor.length)
    (hpaid : 0 ≤ status → (c.afterHead r status 0).log.completed = c.log.completions.length + 1)
    (hmono : c.log.completed ≤ (c.afterHead r status 0).log.completed)
    (hclosing : c.transport.closing = false → status = 0 ∧ r.sent = r.bytes ∧
      c.transport.tlsCommittedPlaintext = 0) :
    Stable (c.afterHead r status (rest.map (·.remainingBytes)).sum) := by
  have hserial := h.head_serial hqueue
  have htail : c.transport.queue.tail = rest := by rw [hqueue]; rfl
  have hdeferred := deferredCallbacks_cons r rest
  rw [← hqueue] at hdeferred
  have hcompleted : c.transport.closing = false →
      (c.afterHead r status 0).log.completed = c.log.completions.length + 1 := fun hopen =>
    hpaid (hclosing hopen).1.ge
  have hlengths := h.lengths
  have hserials := h.serials
  rw [hqueue, List.length_cons] at hlengths
  rw [hqueue, List.map_cons, List.length_cons, List.range'_succ] at hserials
  have hwaiting := congrArg List.tail h.waiting
  rw [List.tail_drop, hqueue, List.map_cons, List.tail_cons] at hwaiting
  have hsnoc : (c.log.completions ++ [(r.serial, status)]).length = c.log.completions.length + 1 := by
    simp
  exact { h with
    order := by
      show (c.log.completions ++ [(r.serial, status)]).map (·.1) =
        List.range (c.log.completions ++ [(r.serial, status)]).length
      rw [List.map_append, h.order, hsnoc, List.range_succ, hserial]
      rfl
    statuses := hobserved
    written := hwritten
    sent := hsent
    charged := by
      intro hreported callback
      have hcharge := h.charged hreported callback
      unfold Connection.charges at hcharge ⊢
      rw [hdeferred, List.count_append] at hcharge
      show ((c.log.fired ++ _).map (·.1)).count callback + c.log.owed.count callback +
        (deferredCallbacks c.transport.queue.tail).count callback +
          c.socket.callbacks.count callback = if callback < c.log.callbacks then 1 else 0
      rw [List.map_append, List.count_append, map_fst_callback, htail]
      omega
    paid := by
      intro callback hfired
      rcases List.mem_append.mp hfired with hold | hnew
      · exact (h.paid callback hold).mono (fun _ => id) (fun _ => id) hmono (List.prefix_refl _)
      · have hown : r.ownCallback = some callback ∧ 0 ≤ status := by
          cases howner : r.ownCallback with
          | none => simp [howner] at hnew
          | some other => simp_all
        have hcallback : r.callback = some callback := by
          have hown := hown.1
          unfold WriteRequest.ownCallback at hown
          split at hown
          · exact hown
          · cases hown
        refine .inr (.inr ⟨c.log.completions.length, ?_, _, h.head_submitted hqueue, hcallback⟩)
        have := hpaid hown.2
        show _ < (c.afterHead r status 0).log.completed
        omega
    pending := by
      show _ = (c.transport.queue.tail.map (·.remainingBytes)).sum
      rw [htail]
      rfl
    counted := fun r' hr' => h.counted r' (List.mem_of_mem_tail hr')
    waiting := by
      show c.log.submitted.drop (c.log.completions ++ _).length = c.transport.queue.tail.map _
      rw [hsnoc, htail]
      exact hwaiting
    lengths := by
      show (c.log.completions ++ _).length + c.transport.queue.tail.length = c.log.submitted.length
      rw [hsnoc, htail]
      omega
    serials := by
      show c.transport.queue.tail.map (·.serial) =
        List.range' (c.log.completions ++ _).length c.transport.queue.tail.length
      rw [hsnoc, htail]
      exact (List.cons.inj hserials).2
    complete := fun hopen => (hcompleted hopen).trans hsnoc.symm
    head := by
      intro hopen r₁ hr₁
      obtain ⟨hat, hsent⟩ := h.behind r₁ (List.mem_of_mem_head? hr₁)
      rw [hsent]
      show r₁.At (0 + c.transport.tlsCommittedPlaintext)
      rw [(hclosing hopen).2.2]
      exact hat
    behind := fun r₁ hr₁ => h.behind r₁ (List.mem_of_mem_tail hr₁)
    spent := fun hclosed hgraceful => by rw [(h.spent hclosed hgraceful).1] at hqueue; cases hqueue
    idle := fun hopen _ => (hclosing hopen).2.2
    position := by
      intro hopen
      have hposition := h.position hopen
      have hzero : headSent c.transport.queue.tail = 0 := by
        rw [htail]
        cases hrest : rest with
        | nil => rfl
        | cons r₁ rest₁ =>
          exact (h.behind r₁ (htail ▸ hrest ▸ List.mem_cons_self)).2
      have hbytes : (c.log.bytesOf (c.afterHead r status 0).log.completed).length =
          (c.log.bytesOf c.log.completed).length + r.bytes := by
        rw [hcompleted hopen, h.bytesOf_succ hqueue, List.length_append, h.complete hopen,
          (h.counted r (hqueue ▸ List.mem_cons_self)).2]
      show c.taken.length = (c.log.bytesOf (c.afterHead r status 0).log.completed).length +
        headSent c.transport.queue.tail + c.transport.tlsCommittedPlaintext
      rw [hbytes, hzero, hposition, hqueue, (hclosing hopen).2.2, ← (hclosing hopen).2.1]
      rfl
    finished := fun hfd => by rw [h.finished hfd] at hqueue; cases hqueue
    unused := fun hactive => by rw [h.unused hactive] at hqueue; cases hqueue }

/-- A request that leaves the queue. -/
theorem Stable.rely_afterHead (h : Stable c) (hqueue : c.transport.queue = r :: rest) (status : ℤ) :
    Rely c (c.afterHead r status (rest.map (·.remainingBytes)).sum) where
  toPersists := { Persists.refl c with fired := List.prefix_append _ _ }
  deferred := fun r' hr' hdeferred _ => ⟨r', List.mem_of_mem_tail hr', rfl, hdeferred⟩
  within := by
    rintro limit serial - - - (hpending | ⟨r', hsingle, -⟩)
    · left
      have hhead := h.head_pending hqueue
      show (rest.map (·.remainingBytes)).sum ≤ limit
      omega
    · left
      rw [hqueue] at hsingle
      cases hsingle
      exact Nat.zero_le _

/-- The state after the next request has been cancelled. -/
theorem Stable.cancelHead (h : Stable c) (hclosing : c.transport.closing = true)
    (hqueue : c.transport.queue = r :: rest) {status : ℤ} (hstatus : status < 0) :
    Stable (c.afterHead r status (rest.map (·.remainingBytes)).sum) := by
  have hcompleted : (c.afterHead r status 0).log.completed = c.log.completed := by
    simp [Connection.afterHead, Log.completed, hstatus.ne]
  obtain ⟨cancelled, hzero, hnegative⟩ := h.statuses
  apply h.afterHead hqueue
  · refine ⟨cancelled ++ [status], ?_, ?_⟩
    · rw [hcompleted, List.map_append, hzero, List.append_assoc]
      rfl
    · intro status' hmem
      rcases List.mem_append.mp hmem with hold | hnew
      · exact hnegative status' hold
      · rw [List.mem_singleton.mp hnew]
        exact hstatus
  · rw [hcompleted]
    exact h.written
  · rw [hcompleted]
    exact h.sent
  · intro hnonneg
    omega
  · exact hcompleted.ge
  · intro hopen
    rw [hopen] at hclosing
    cases hclosing

/-- The state after the head request has been completed. On TLS all ciphertext has
been sent by then. -/
theorem Stable.completeHead (h : Stable c) (hopen : c.transport.closing = false)
    (hqueue : c.transport.queue = r :: rest) (hfull : r.sent = r.bytes) (hpos : 0 < r.bytes)
    (hcommitted : c.transport.tlsCommittedPlaintext = 0)
    (hsent : c.transport.tls = true → c.log.ciphertext = c.log.descriptor) :
    Stable (c.afterHead r 0 (rest.map (·.remainingBytes)).sum) := by
  have hcomplete := h.complete hopen
  have hposition := h.position hopen
  have hcounted := (h.counted r (hqueue ▸ List.mem_cons_self)).2
  have hcompleted : (c.afterHead r 0 0).log.completed = c.log.completions.length + 1 := by
    rw [← hcomplete]
    simp [Connection.afterHead, Log.completed]
  have hbytes : (c.log.bytesOf (c.log.completions.length + 1)).length = c.taken.length := by
    rw [h.bytesOf_succ hqueue, List.length_append, hposition, hcomplete, hqueue, hcommitted,
      ← hcounted, ← hfull]
    rfl
  obtain ⟨cancelled, hzero, hnegative⟩ := h.statuses
  have hnone : cancelled = [] := by
    have hlength := congrArg List.length hzero
    simp only [List.length_map, List.length_append, List.length_replicate, hcomplete] at hlength
    exact List.length_eq_zero_iff.mp (by omega)
  apply h.afterHead hqueue
  · refine ⟨[], ?_, by simp⟩
    rw [hcompleted, List.map_append, hzero, hnone, hcomplete, List.append_nil, List.append_nil,
      List.replicate_succ']
    rfl
  · rw [hcompleted, hbytes]
  · intro htls n hn hle
    rw [hcompleted] at hle
    by_cases hlast : n = c.log.completions.length + 1
    · have hne : c.taken ≠ [] := by
        intro hnil
        have hlength := congrArg List.length (h.bytesOf_succ hqueue)
        rw [List.length_append, hbytes, hnil, List.length_nil] at hlength
        omega
      obtain ⟨cut, hcut⟩ := h.last htls hopen hne
      refine ⟨cut, by rwa [hlast, hbytes], ?_⟩
      rw [← hsent htls]
      exact h.cuts _ hcut
    · exact h.sent htls n hn (by omega)
  · exact fun _ => hcompleted
  · rw [hcompleted]
    omega
  · exact fun _ => ⟨rfl, hfull, hcommitted⟩

/-- An open transport without requests has nothing left, once its ciphertext is sent. -/
theorem Stable.drained_of_empty (h : Stable c) (hopen : c.transport.closing = false)
    (hempty : c.transport.queue = [])
    (hsent : c.transport.tls = true → c.log.descriptor = c.log.ciphertext) : c.Drained := by
  have hcompleted : c.log.completed = c.log.submitted.length := by
    have hlengths := h.lengths
    rw [hempty] at hlengths
    rw [h.complete hopen]
    exact hlengths
  refine ⟨hempty, hcompleted, h.taken.eq_of_length ?_, hsent⟩
  have hall : c.log.bytesOf c.log.completed = c.log.submittedBytes := by
    rw [hcompleted, Log.bytesOf, List.take_length]
    rfl
  rw [h.position hopen, hempty, h.idle hopen hempty, hall]
  rfl

/-- Entering `closeNow`. -/
theorem Stable.close (h : Stable c) (hnative : c.webSocket.nativeTransport = true)
    (hdrained : c.log.disrupted = false → c.Drained) :
    Stable (c.mapTransport fun t => { t with closing := true }) :=
  { h with
    spent := fun _ => hdrained
    unshut := fun hopen => by cases hopen
    deadline := fun _ hopen => by cases hopen
    complete := fun hopen => by cases hopen
    head := fun hopen => by cases hopen
    idle := fun hopen => by cases hopen
    position := fun hopen => by cases hopen
    cipher := fun _ hopen => by cases hopen
    last := fun _ hopen => by cases hopen
    usable := fun hopen => by cases hopen
    polled := fun _ => rfl
    foreign := fun _ => hnative }

/-- A reason to close the transport other than the end of a closing handshake. -/
def Connection.disrupt (c : Connection Z) : Connection Z :=
  c.mapLog fun log => { log with disrupted := true }

theorem Stable.closeDisrupted (h : Stable c) (hnative : c.webSocket.nativeTransport = true) :
    Stable (c.disrupt.mapTransport fun t => { t with closing := true }) :=
  have hdisrupted : Stable c.disrupt := { h with spent := fun _ hfalse => by cases hfalse }
  hdisrupted.close hnative fun hfalse => by cases hfalse

theorem Closable.closeDisrupted (h : Closable c) (hnative : c.webSocket.nativeTransport = true) :
    Closable (c.disrupt.mapTransport fun t => { t with closing := true }) :=
  ⟨h.toStable.closeDisrupted hnative, h.pendingClose, h.reporting⟩

theorem Native.close (h : Native c) (hdrained : c.log.disrupted = false → c.Drained) :
    Closable (c.mapTransport fun t => { t with closing := true }) :=
  ⟨h.toStable.close (h.driven h.active) hdrained, h.pendingClose, h.closable.reporting⟩

theorem Native.closeDisrupted (h : Native c) :
    Closable (c.disrupt.mapTransport fun t => { t with closing := true }) :=
  h.closable.closeDisrupted (h.driven h.active)

/-- The end of `closeNow`. -/
theorem Stable.release (h : Stable c) (hclosing : c.transport.closing = true)
    (hempty : c.transport.queue = []) : Stable (c.mapTransport fun t => { t with
      tlsCiphertext := []
      tlsCiphertextOffset := 0
      tlsCommittedPlaintext := 0
      pollEvents := 0
      descriptorOpen := false
      pollClosing := t.pollInitialized
      pollClosed := t.pollClosed || !t.pollInitialized }) :=
  { h with
    head := fun hopen => absurd (hopen.symm.trans hclosing) (by decide)
    idle := fun hopen => absurd (hopen.symm.trans hclosing) (by decide)
    plain := fun _ => rfl
    position := fun hopen => absurd (hopen.symm.trans hclosing) (by decide)
    cipher := fun _ hopen => absurd (hopen.symm.trans hclosing) (by decide)
    deleted := fun _ => rfl
    usable := fun hopen => absurd (hopen.symm.trans hclosing) (by decide)
    finished := fun _ => hempty
    polled := fun _ => hclosing }

/-- The state after the head request has been changed, and bytes have been taken. -/
def Connection.moveHead (c : Connection Z) (r' : WriteRequest) (pending committed : ℕ)
    (kernel plaintext : Bytes) (staged : List (ℕ × ℕ)) : Connection Z :=
  { c with
    transport := { c.transport with
      queue := r' :: c.transport.queue.tail
      pendingBytes := pending
      tlsCommittedPlaintext := committed }
    log := { c.log with kernel, plaintext, staged } }

/-- What does not change as a request is written. -/
structure WriteRequest.Moved (r r' : WriteRequest) : Prop where
  content : r'.content = r.content
  callback : r'.callback = r.callback
  deferred : r'.deferred = r.deferred
  serial : r'.serial = r.serial
  bytes : r'.bytes = r.bytes

/-- The head request moves on by the bytes that have been taken. -/
theorem Stable.moveHead (h : Stable c) (hopen : c.transport.closing = false)
    (hqueue : c.transport.queue = r :: rest) {r' : WriteRequest} (hmoved : r.Moved r')
    (data : Bytes) {pending committed : ℕ} {kernel plaintext : Bytes} {staged : List (ℕ × ℕ)}
    (hdata : data <+: r.content.drop (r.sent + c.transport.tlsCommittedPlaintext))
    (htaken : (if c.transport.tls then plaintext else kernel) = c.taken ++ data)
    (hat : r'.At (r'.sent + committed))
    (hoffset : r'.sent + committed = r.sent + c.transport.tlsCommittedPlaintext + data.length)
    (hpending : pending = r'.remainingBytes + (rest.map (·.remainingBytes)).sum)
    (hplain : c.transport.tls = false → committed = 0)
    (hstaged : c.log.staged ⊆ staged) (hcuts : ∀ p ∈ staged, p.2 ≤ c.log.ciphertext.length)
    (hlast : c.transport.tls = true → c.taken ++ data ≠ [] →
      ∃ cut, ((c.taken ++ data).length, cut) ∈ staged) :
    Stable (c.moveHead r' pending committed kernel plaintext staged) := by
  have htaken' : (c.moveHead r' pending committed kernel plaintext staged).taken =
      c.taken ++ data := htaken
  have htail : c.transport.queue.tail = rest := by rw [hqueue]; rfl
  have hcallbacks : deferredCallbacks (r' :: c.transport.queue.tail) =
      deferredCallbacks c.transport.queue := by
    rw [htail, hqueue, deferredCallbacks_cons, deferredCallbacks_cons, WriteRequest.ownCallback,
      WriteRequest.ownCallback, hmoved.deferred, hmoved.callback]
  have hwaiting := h.waiting
  have hserials := h.serials
  have hlengths := h.lengths
  have hposition := h.position hopen
  rw [hqueue] at hwaiting hserials hlengths hposition
  exact { h with
    taken := by
      rw [htaken']
      exact h.taken_append hopen hqueue hdata
    written := by
      rw [htaken', List.length_append]
      exact h.written.trans (Nat.le_add_right _ _)
    sent := by
      intro htls n hn hle
      obtain ⟨cut, hcut, hle⟩ := h.sent htls n hn hle
      exact ⟨cut, hstaged hcut, hle⟩
    charged := by
      intro hreported callback
      have hcharge := h.charged hreported callback
      unfold Connection.charges at hcharge ⊢
      rw [← hcallbacks] at hcharge
      exact hcharge
    pending := by
      show pending = r'.remainingBytes + (c.transport.queue.tail.map (·.remainingBytes)).sum
      rw [htail]
      exact hpending
    counted := by
      intro r₁ hr₁
      rcases List.mem_cons.mp hr₁ with rfl | hmem
      · exact ⟨hat.bytes ▸ (Nat.le_add_right _ _).trans hat.offset_le, hat.bytes⟩
      · exact h.counted r₁ (List.mem_of_mem_tail hmem)
    waiting := by
      show c.log.submitted.drop c.log.completions.length =
        (r' :: c.transport.queue.tail).map fun r => ⟨r.content, r.callback⟩
      rw [htail, hwaiting, List.map_cons, List.map_cons, hmoved.content, hmoved.callback]
    lengths := by
      show c.log.completions.length + (r' :: c.transport.queue.tail).length = c.log.submitted.length
      rw [htail]
      exact hlengths
    serials := by
      show (r' :: c.transport.queue.tail).map (·.serial) =
        List.range' c.log.completions.length (r' :: c.transport.queue.tail).length
      rw [htail, List.map_cons, hmoved.serial]
      exact hserials
    head := by
      rintro _ r₁ ⟨⟩
      exact hat
    spent := fun hclosed => absurd (hclosed.symm.trans hopen) (by decide)
    idle := fun _ hnil => by cases hnil
    plain := hplain
    position := by
      intro _
      show (c.moveHead r' pending committed kernel plaintext staged).taken.length =
        (c.log.bytesOf c.log.completed).length + r'.sent + committed
      have hsent : headSent (r :: rest) = r.sent := rfl
      rw [htaken', List.length_append, hposition]
      omega
    cuts := hcuts
    last := by
      intro htls _ hne
      rw [htaken'] at hne ⊢
      exact hlast htls hne
    finished := fun hfd => by rw [h.finished hfd] at hqueue; cases hqueue
    unused := fun hactive => by rw [h.unused hactive] at hqueue; cases hqueue }

/-- A head request that moves on. -/
theorem Connection.rely_moveHead (hqueue : c.transport.queue = r :: rest)
    {r' : WriteRequest} (hmoved : r.Moved r') {pending committed : ℕ} {kernel plaintext : Bytes}
    {staged : List (ℕ × ℕ)} (hpending : pending ≤ c.transport.pendingBytes) :
    Rely c (c.moveHead r' pending committed kernel plaintext staged) where
  toPersists := { Persists.refl c with }
  deferred := by
    intro r₁ hr₁ hdeferred _
    rcases List.mem_cons.mp hr₁ with rfl | hmem
    · exact ⟨r, hqueue ▸ List.mem_cons_self, hmoved.serial.symm, hmoved.deferred ▸ hdeferred⟩
    · exact ⟨r₁, List.mem_of_mem_tail hmem, rfl, hdeferred⟩
  within := by
    rintro limit serial - - - (hle | ⟨r₁, hsingle, hserial⟩)
    · exact .inl (hpending.trans hle)
    · right
      rw [hqueue] at hsingle
      obtain ⟨rfl, rfl⟩ := List.cons.inj hsingle
      refine ⟨r', ?_, hmoved.serial.trans hserial⟩
      show r' :: c.transport.queue.tail = [r']
      rw [hqueue]
      rfl

/-- The state after a request has entered the queue. -/
def Connection.enqueued (c : Connection Z) (kind : Outgoing) (r : WriteRequest)
    (owed : List WriteCallback) : Connection Z :=
  { c with
    transport := c.transport.enqueueWrite r
    log := { c.log with
      submitted := c.log.submitted ++ [⟨r.content, r.callback⟩]
      frames := c.log.frames ++ [(kind, r.content)]
      owed := owed } }

theorem deferredCallbacks_concat (queue : List WriteRequest) (r : WriteRequest) :
    deferredCallbacks (queue ++ [r]) = deferredCallbacks queue ++ r.ownCallback.toList := by
  have hlast := deferredCallbacks_cons r []
  unfold deferredCallbacks at hlast ⊢
  rw [List.filter_append, List.filterMap_append, hlast]
  simp

/-- A Close frame comes first, and not without the knowledge of the session. -/
structure Admissible (c : Connection Z) (frame : Outgoing × Bytes) : Prop where
  orderly : c.log.openedLate = false → c.CloseQueued →
    isCloseFrame frame = false ∧ isDataFrame frame = false
  closeSent : isCloseFrame frame = true → c.session.session.closeSent = true

theorem Connection.closeQueued_enqueued {kind : Outgoing} {owed : List WriteCallback} :
    (c.enqueued kind r owed).CloseQueued ↔
      c.CloseQueued ∨ isCloseFrame (kind, r.content) = true := by
  constructor
  · rintro ⟨frame, hmem, hclose⟩
    rcases List.mem_append.mp hmem with hold | hnew
    · exact .inl ⟨frame, hold, hclose⟩
    · rw [List.mem_singleton.mp hnew] at hclose
      exact .inr hclose
  · rintro (⟨frame, hmem, hclose⟩ | hclose)
    · exact ⟨frame, List.mem_append_left _ hmem, hclose⟩
    · exact ⟨_, List.mem_append_right _ List.mem_cons_self, hclose⟩

/-- A new request. -/
theorem Stable.enqueue (h : Stable c) (hopen : c.transport.closing = false)
    (hfd : c.transport.descriptorOpen = true) (hactive : c.transport.active = true)
    (hat : r.At 0) (hsent : r.sent = 0) (hserial : r.serial = c.log.submitted.length)
    {kind : Outgoing} {owed : List WriteCallback} (howed : c.log.owed = r.ownCallback.toList ++ owed)
    (hadmissible : Admissible c (kind, r.content)) : Stable (c.enqueued kind r owed) := by
  have hlengths := h.lengths
  have hcompleted : c.log.completed ≤ c.log.submitted.length := by
    rw [h.complete hopen]
    omega
  have hbytes : ∀ n, n ≤ c.log.completed →
      (c.enqueued kind r owed).log.bytesOf n = c.log.bytesOf n := by
    intro n hn
    unfold Log.bytesOf
    show (((c.log.submitted ++ [_]).take n).map Submission.content).flatten = _
    rw [List.take_append_of_le_length (by omega)]
  have hfront : c.log.submittedBytes <+: (c.enqueued kind r owed).log.submittedBytes := by
    show _ <+: ((c.log.submitted ++ [_]).map Submission.content).flatten
    rw [List.map_append, List.flatten_append]
    exact List.prefix_append _ _
  have hqueue : (c.enqueued kind r owed).transport.queue = c.transport.queue ++ [r] := rfl
  exact { h with
    taken := h.taken.trans hfront
    written := by
      rw [show (c.enqueued kind r owed).log.completed = c.log.completed from rfl, hbytes _ le_rfl]
      exact h.written
    sent := by
      intro htls n hn hle
      rw [hbytes n hle]
      exact h.sent htls n hn hle
    charged := by
      intro hreported callback
      have hcharge := h.charged hreported callback
      unfold Connection.charges at hcharge ⊢
      rw [howed, List.count_append] at hcharge
      rw [hqueue, deferredCallbacks_concat, List.count_append]
      show (c.log.fired.map (·.1)).count callback + owed.count callback + _ +
        c.socket.callbacks.count callback = if callback < c.log.callbacks then 1 else 0
      omega
    paid := fun callback hfired => (h.paid callback hfired).mono (fun _ => id) (fun _ => id) le_rfl
      (List.prefix_append _ _)
    orderly := by
      intro honTime
      apply List.pairwise_append.mpr
      refine ⟨h.orderly honTime, List.pairwise_singleton _ _, ?_⟩
      intro frame hmem frame' hmem' hclose
      rw [List.mem_singleton.mp hmem']
      exact hadmissible.orderly honTime ⟨frame, hmem, hclose⟩
    pending := by
      have hremaining : r.remainingBytes = r.bytes := by simp [WriteRequest.remainingBytes, hsent]
      show c.transport.pendingBytes + r.bytes =
        ((c.transport.queue ++ [r]).map (·.remainingBytes)).sum
      rw [h.pending, List.map_append, List.sum_append, List.map_singleton, List.sum_singleton,
        hremaining]
    counted := by
      intro r' hr'
      rcases List.mem_append.mp hr' with hold | hnew
      · exact h.counted r' hold
      · rw [List.mem_singleton.mp hnew, hsent]
        exact ⟨Nat.zero_le _, hat.bytes⟩
    waiting := by
      show (c.log.submitted ++ [_]).drop c.log.completions.length =
        (c.transport.queue ++ [r]).map fun r => ⟨r.content, r.callback⟩
      rw [List.drop_append_of_le_length (by omega), h.waiting, List.map_append]
      rfl
    lengths := by
      show c.log.completions.length + (c.transport.queue ++ [r]).length =
        (c.log.submitted ++ [_]).length
      simp only [List.length_append, List.length_singleton]
      omega
    serials := by
      show (c.transport.queue ++ [r]).map (·.serial) =
        List.range' c.log.completions.length (c.transport.queue ++ [r]).length
      rw [List.map_append, h.serials, List.length_append, List.length_singleton, List.range'_concat,
        Nat.one_mul, hlengths, ← hserial]
      rfl
    head := by
      intro _ r₁ hr₁
      cases hold : c.transport.queue with
      | nil =>
        rw [hqueue, hold] at hr₁
        cases hr₁
        have hidle : (c.enqueued kind r owed).transport.tlsCommittedPlaintext = 0 :=
          h.idle hopen hold
        rw [hsent, hidle]
        exact hat
      | cons r₂ rest₂ =>
        rw [hqueue, hold] at hr₁
        cases hr₁
        exact h.head_at hopen hold
    behind := by
      intro r' hr'
      cases hold : c.transport.queue with
      | nil =>
        rw [hqueue, hold] at hr'
        cases hr'
      | cons r₂ rest₂ =>
        rw [hqueue, hold] at hr'
        rcases List.mem_append.mp hr' with hmem | hnew
        · exact h.behind r' (hold ▸ hmem)
        · rw [List.mem_singleton.mp hnew]
          exact ⟨hat, hsent⟩
    spent := fun hclosed => absurd (hclosed.symm.trans hopen) (by decide)
    idle := fun _ hnil => by rw [hqueue] at hnil; simp at hnil
    position := by
      intro _
      have hposition := h.position hopen
      have hheadSent : headSent (c.transport.queue ++ [r]) = headSent c.transport.queue := by
        cases c.transport.queue with
        | nil => exact hsent
        | cons r₁ rest₁ => rfl
      rw [hqueue, hheadSent, show (c.enqueued kind r owed).log.completed = c.log.completed from rfl,
        hbytes _ le_rfl]
      exact hposition
    finished := fun hclosed => absurd (hfd.symm.trans hclosed) (by decide)
    unused := fun hinactive => absurd (hactive.symm.trans hinactive) (by decide)
    fresh := fun callback hmem => h.fresh callback (howed ▸ List.mem_append_right _ hmem)
    nodup := by
      have hnodup := h.nodup
      rw [howed] at hnodup
      exact (List.nodup_append.mp hnodup).2.1
    closeSent := by
      intro hclose
      rcases Connection.closeQueued_enqueued.mp hclose with hold | hnew
      · exact h.closeSent hold
      · exact hadmissible.closeSent hnew }

/-- The state after a request of the queue has been deferred. -/
def Connection.deferredAt (c : Connection Z) (serial : ℕ) (owed : List WriteCallback) : Connection Z :=
  { c with
    transport := c.transport.deferRequest serial
    log := { c.log with owed := owed } }

private theorem count_deferred (queue : List WriteRequest) {r : WriteRequest}
    (hmem : r ∈ queue) (hwaits : r.deferred = false) (hnodup : (queue.map (·.serial)).Nodup)
    (callback : WriteCallback) :
    (deferredCallbacks (queue.map fun r' => if r'.serial = r.serial then r'.defer else r')).count
        callback = r.callback.toList.count callback + (deferredCallbacks queue).count callback := by
  induction queue with
  | nil => cases hmem
  | cons first rest ih =>
    rw [List.map_cons] at hnodup
    obtain ⟨hfirst, hrest⟩ := List.nodup_cons.mp hnodup
    rw [List.map_cons, deferredCallbacks_cons, deferredCallbacks_cons, List.count_append,
      List.count_append]
    rcases List.mem_cons.mp hmem with rfl | hlater
    · have hothers : (rest.map fun r' => if r'.serial = r.serial then r'.defer else r') = rest := by
        conv_rhs => rw [← List.map_id rest]
        apply List.map_congr_left
        intro r' hr'
        rw [if_neg]
        · rfl
        · intro hserial
          exact hfirst (List.mem_map.mpr ⟨r', hr', hserial⟩)
      have hown : r.ownCallback = none := by simp [WriteRequest.ownCallback, hwaits]
      rw [hothers, if_pos rfl, hown]
      simp [WriteRequest.ownCallback, WriteRequest.defer]
    · have hother : first.serial ≠ r.serial := fun hserial =>
        hfirst (List.mem_map.mpr ⟨r, hlater, hserial.symm⟩)
      rw [if_neg hother, ih hlater hrest]
      omega

/-- A request that could not be written at once takes its callback over. -/
theorem Stable.defer (h : Stable c) {serial : ℕ} (hmem : r ∈ c.transport.queue)
    (hserial : r.serial = serial) (hwaits : r.deferred = false) {owed : List WriteCallback}
    (howed : c.log.owed = r.callback.toList ++ owed) : Stable (c.deferredAt serial owed) := by
  subst hserial
  have hcongr : ∀ {α : Type} (f : WriteRequest → α), (∀ r', f r'.defer = f r') →
      (c.transport.queue.map fun r' => if r'.serial = r.serial then r'.defer else r').map f =
        c.transport.queue.map f := by
    intro α f hf
    rw [List.map_map]
    apply List.map_congr_left
    intro r' _
    rw [Function.comp_apply]
    split
    · exact hf r'
    · rfl
  have hnodup : (c.transport.queue.map (·.serial)).Nodup := by
    rw [h.serials]
    exact List.nodup_range'
  have hsame : ∀ r' : WriteRequest, ∀ p : WriteRequest → Prop, (p r' → p r'.defer) → p r' →
      p (if r'.serial = r.serial then r'.defer else r') := by
    intro r' p hdefer hp
    split
    · exact hdefer hp
    · exact hp
  have hlength : (c.deferredAt r.serial owed).transport.queue.length = c.transport.queue.length :=
    List.length_map _
  exact { h with
    charged := by
      intro hreported callback
      have hcharge := h.charged hreported callback
      unfold Connection.charges at hcharge ⊢
      rw [howed, List.count_append] at hcharge
      have hdeferred := count_deferred _ hmem hwaits hnodup callback
      show (c.log.fired.map (·.1)).count callback + owed.count callback +
        (deferredCallbacks (c.transport.queue.map _)).count callback +
          c.socket.callbacks.count callback = if callback < c.log.callbacks then 1 else 0
      rw [hdeferred]
      omega
    pending := by
      show c.transport.pendingBytes =
        ((c.transport.queue.map _).map WriteRequest.remainingBytes).sum
      rw [hcongr WriteRequest.remainingBytes fun _ => rfl]
      exact h.pending
    counted := by
      intro r' hr'
      obtain ⟨r₁, hr₁, rfl⟩ := List.mem_map.mp hr'
      exact hsame r₁ (fun r => r.sent ≤ r.bytes ∧ r.bytes = r.content.length) id (h.counted r₁ hr₁)
    waiting := by
      show c.log.submitted.drop c.log.completions.length = (c.transport.queue.map _).map _
      rw [hcongr (fun r => (⟨r.content, r.callback⟩ : Submission)) fun _ => rfl]
      exact h.waiting
    lengths := by
      rw [hlength]
      exact h.lengths
    serials := by
      rw [hlength]
      exact (hcongr (·.serial) fun _ => rfl).trans h.serials
    head := by
      intro hopen r₁ hr₁
      obtain ⟨r₂, hr₂, rfl⟩ := Option.mem_map.mp (List.head?_map ▸ hr₁)
      exact hsame r₂ (fun r => r.At (r.sent + c.transport.tlsCommittedPlaintext))
        (fun hat => { hat with }) (h.head hopen r₂ hr₂)
    behind := by
      intro r₁ hr₁
      obtain ⟨r₂, hr₂, rfl⟩ := List.mem_map.mp (List.map_tail ▸ hr₁)
      exact hsame r₂ (fun r => r.At 0 ∧ r.sent = 0) (fun hat => ⟨{ hat.1 with }, hat.2⟩)
        (h.behind r₂ hr₂)
    spent := by
      intro hclosed hgraceful
      obtain ⟨hempty, hdrained⟩ := h.spent hclosed hgraceful
      exact ⟨List.map_eq_nil_iff.mpr hempty, hdrained⟩
    idle := fun hopen hnil => h.idle hopen (List.map_eq_nil_iff.mp hnil)
    position := by
      intro hopen
      have hposition := h.position hopen
      have hheadSent : headSent (c.deferredAt r.serial owed).transport.queue =
          headSent c.transport.queue := by
        show headSent (c.transport.queue.map _) = _
        cases c.transport.queue with
        | nil => rfl
        | cons r₁ rest₁ => exact hsame r₁ (fun r' => r'.sent = r₁.sent) id rfl
      rw [hheadSent]
      exact hposition
    finished := fun hfd => List.map_eq_nil_iff.mpr (h.finished hfd)
    unused := fun hactive => List.map_eq_nil_iff.mpr (h.unused hactive)
    fresh := fun callback hcallback => h.fresh callback (howed ▸ List.mem_append_right _ hcallback)
    nodup := by
      have hnodup := h.nodup
      rw [howed] at hnodup
      exact (List.nodup_append.mp hnodup).2.1 }

/-- OpenSSL has produced ciphertext. -/
theorem Stable.produce (h : Stable c) (hopen : c.transport.closing = false) (ciphertext : Bytes) :
    Stable ((c.mapTransport fun t => { t with nodeWriteBIO := t.nodeWriteBIO ++ ciphertext }).mapLog
      fun log => { log with ciphertext := log.ciphertext ++ ciphertext }) :=
  { h with
    descriptor := h.descriptor.trans (List.prefix_append _ _)
    spent := fun hclosed => absurd (hclosed.symm.trans hopen) (by decide)
    cipher := by
      intro htls hopen hreporting
      show c.log.ciphertext ++ ciphertext = c.log.descriptor ++
        c.transport.tlsCiphertext.drop c.transport.tlsCiphertextOffset ++
          (c.transport.nodeWriteBIO ++ ciphertext)
      rw [h.cipher htls hopen hreporting, List.append_assoc]
    cuts := by
      intro p hp
      show p.2 ≤ (c.log.ciphertext ++ ciphertext).length
      rw [List.length_append]
      exact (h.cuts p hp).trans (Nat.le_add_right _ _) }

/-- The state after some of the ciphertext has been sent. -/
def Connection.afterSend (c : Connection Z) (sent kept : Bytes) (offset : ℕ) (bio : Bytes) :
    Connection Z :=
  { c with
    transport := { c.transport with
      tlsCiphertext := kept
      tlsCiphertextOffset := offset
      nodeWriteBIO := bio }
    log := { c.log with descriptor := c.log.descriptor ++ sent } }

/-- The descriptor takes the next bytes of the ciphertext. -/
theorem Stable.sendCiphertext (h : Stable c) (htls : c.transport.tls = true)
    (hopen : c.transport.closing = false) (hreporting : c.transport.reportingError = false)
    {sent kept bio : Bytes} {offset : ℕ}
    (hsplit : c.transport.tlsCiphertext.drop c.transport.tlsCiphertextOffset ++
      c.transport.nodeWriteBIO = sent ++ (kept.drop offset ++ bio)) :
    Stable (c.afterSend sent kept offset bio) := by
  have hcipher := h.cipher htls hopen hreporting
  rw [List.append_assoc, hsplit, ← List.append_assoc] at hcipher
  exact { h with
    descriptor := ⟨kept.drop offset ++ bio, hcipher.symm⟩
    spent := fun hclosed => absurd (hclosed.symm.trans hopen) (by decide)
    sent := by
      intro htls n hn hle
      obtain ⟨cut, hcut, hlength⟩ := h.sent htls n hn hle
      refine ⟨cut, hcut, hlength.trans ?_⟩
      show _ ≤ (c.log.descriptor ++ sent).length
      rw [List.length_append]
      exact Nat.le_add_right _ _
    cipher := by
      intro _ _ _
      show c.log.ciphertext = c.log.descriptor ++ sent ++ kept.drop offset ++ bio
      simp only [hcipher, List.append_assoc] }

end Eiows
