import Eiows.WebSocket.EventLoop

/-!
# The invariant of a connection

One invariant covers the write queue, the streams of bytes, the callbacks and the
Close frames. `Stable` holds between any two steps, `Native` where native functions
run, and `Settled` where the application may run. `Rely` says what a call keeps.
-/

namespace Eiows

open Interaction

variable {Z : Zlib}

namespace Log

/-- The bytes of the first requests. -/
def bytesOf (log : Log) (n : ℕ) : Bytes := ((log.submitted.take n).map (·.content)).flatten

/-- The bytes of all requests. -/
def submittedBytes (log : Log) : Bytes := (log.submitted.map (·.content)).flatten

/-- The number of requests completed without an error. -/
def completed (log : Log) : ℕ := log.completions.countP (·.2 = 0)

/-- The bytes of the frame with this callback have all been handed over. -/
def Paid (log : Log) (callback : WriteCallback) : Prop :=
  callback ∈ log.empty ∨ callback ∈ log.handed ∨ ∃ n < log.completed, ∃ submission,
    log.submitted[n]? = some submission ∧ submission.callback = some callback

end Log

/-- The callbacks of the deferred requests. -/
def deferredCallbacks (queue : List WriteRequest) : List WriteCallback :=
  (queue.filter (·.deferred)).filterMap (·.callback)

/-- The bytes of the head request that count as written. -/
def headSent : List WriteRequest → ℕ
  | [] => 0
  | r :: _ => r.sent

/-- The frames that are Close frames. -/
def isCloseFrame : Outgoing × Bytes → Bool
  | (.close, _) => true
  | (.session, data) => data.head? = some 0x88
  | _ => false

/-- The frames that carry application data. -/
def isDataFrame : Outgoing × Bytes → Bool
  | (.message _, _) => true
  | (.frameList, _) => true
  | (.session, data) => data.head?.any fun first => first &&& 15 ≤ 2
  | _ => false

/-- Nothing but other control frames follows a Close frame. -/
def Orderly (frames : List (Outgoing × Bytes)) : Prop :=
  frames.Pairwise fun a b => isCloseFrame a = true → isCloseFrame b = false ∧ isDataFrame b = false

namespace Connection

/-- The bytes that the layer below has taken: the kernel, or OpenSSL. -/
def taken (c : Connection Z) : Bytes :=
  if c.transport.tls then c.log.plaintext else c.log.kernel

/-- A Close frame has been handed to the transport. -/
def CloseQueued (c : Connection Z) : Prop := ∃ frame ∈ c.log.frames, isCloseFrame frame = true

/-- The closing handshake has started, or the connection is over. -/
def Ending (c : Connection Z) : Prop :=
  c.webSocket.readyState = .closing ∨ c.webSocket.readyState = .closed

/-- After a Close frame, no call of the application leads to a data frame. -/
def Guarded (c : Connection Z) : Prop :=
  c.log.openedLate = false → c.CloseQueued →
    c.webSocket.readyState ≠ .opened ∨ c.transport.closing = true

/-- Once a CLOSE event has been dispatched, the deadline of the close has been started. -/
def Told (c : Connection Z) : Prop :=
  (∃ code reason, Event.close code reason ∈ c.log.dispatched) → c.transport.closing = false →
    c.log.deadline = true

/-- A transport that has lost its session or its owner is closing. -/
def Severed (c : Connection Z) : Prop :=
  c.transport.active = true → c.transport.sessionAttached = false ∨
    (c.webSocket.closed = true ∧ c.webSocket.nativeTransport = true) →
      c.transport.closing = true

/-- Nothing is left to be written: all requests are complete, and their ciphertext is sent. -/
def Drained (c : Connection Z) : Prop :=
  c.transport.queue = [] ∧ c.log.completed = c.log.submitted.length ∧
    c.taken = c.log.submittedBytes ∧ (c.transport.tls = true → c.log.descriptor = c.log.ciphertext)

/-- How often a callback is held somewhere, or has been called or scheduled. -/
def charges (c : Connection Z) (callback : WriteCallback) : ℕ :=
  (c.log.fired.map (·.1)).count callback + c.log.owed.count callback +
    (deferredCallbacks c.transport.queue).count callback + c.socket.callbacks.count callback

end Connection

/-- What can be said of a connection at any time. -/
structure Observed (c : Connection Z) : Prop where
  order : c.log.completions.map (·.1) = List.range c.log.completions.length
  statuses : ∃ cancelled, c.log.completions.map (·.2) =
    List.replicate c.log.completed 0 ++ cancelled ∧ ∀ status ∈ cancelled, status < 0
  taken : c.taken <+: c.log.submittedBytes
  written : (c.log.bytesOf c.log.completed).length ≤ c.taken.length
  descriptor : c.log.descriptor <+: c.log.ciphertext
  sent : c.transport.tls = true → ∀ n, 0 < n → n ≤ c.log.completed →
    ∃ cut, ((c.log.bytesOf n).length, cut) ∈ c.log.staged ∧ cut ≤ c.log.descriptor.length
  charged : c.log.misreported = false → ∀ callback,
    c.charges callback = if callback < c.log.callbacks then 1 else 0
  paid : ∀ callback, (callback, true) ∈ c.log.fired → c.log.Paid callback
  orderly : c.log.openedLate = false → Orderly c.log.frames
  late : c.log.openedLate = true → c.webSocket.nativeTransport = true
  deleted : c.transport.destroyed = true → c.transport.descriptorOpen = false

/-- What holds of a connection between any two steps of its functions. -/
structure Stable (c : Connection Z) : Prop extends Observed c where
  pending : c.transport.pendingBytes = (c.transport.queue.map (·.remainingBytes)).sum
  counted : ∀ r ∈ c.transport.queue, r.sent ≤ r.bytes ∧ r.bytes = r.content.length
  waiting : c.log.submitted.drop c.log.completions.length =
    c.transport.queue.map fun r => ⟨r.content, r.callback⟩
  lengths : c.log.completions.length + c.transport.queue.length = c.log.submitted.length
  serials : c.transport.queue.map (·.serial) =
    List.range' c.log.completions.length c.transport.queue.length
  complete : c.transport.closing = false → c.log.completed = c.log.completions.length
  head : c.transport.closing = false → ∀ r ∈ c.transport.queue.head?,
    r.At (r.sent + c.transport.tlsCommittedPlaintext)
  behind : ∀ r ∈ c.transport.queue.tail, r.At 0 ∧ r.sent = 0
  idle : c.transport.closing = false → c.transport.queue = [] →
    c.transport.tlsCommittedPlaintext = 0
  plain : c.transport.tls = false → c.transport.tlsCommittedPlaintext = 0
  position : c.transport.closing = false → c.taken.length =
    (c.log.bytesOf c.log.completed).length + headSent c.transport.queue +
      c.transport.tlsCommittedPlaintext
  cipher : c.transport.tls = true → c.transport.closing = false →
    c.transport.reportingError = false → c.log.ciphertext = c.log.descriptor ++
      c.transport.tlsCiphertext.drop c.transport.tlsCiphertextOffset ++ c.transport.nodeWriteBIO
  cuts : ∀ p ∈ c.log.staged, p.2 ≤ c.log.ciphertext.length
  last : c.transport.tls = true → c.transport.closing = false → c.taken ≠ [] →
    ∃ cut, (c.taken.length, cut) ∈ c.log.staged
  finished : c.transport.descriptorOpen = false → c.transport.queue = []
  returns : ∀ p ∈ c.log.returns, p.2 = false → c.transport.maxBackpressure ≠ 0 →
    p.1 ≤ c.transport.maxBackpressure
  usable : c.transport.closing = false →
    c.transport.active = true ∨ c.transport.sessionAttached = true →
      c.transport.descriptorOpen = true
  vectors : 0 < c.transport.maximumIOVectors
  unused : c.transport.active = false → c.transport.queue = []
  quiet : c.webSocket.nativeTransport = true → c.transport.active = false →
    c.webSocket.readyState ≠ .opened ∧ c.webSocket.nativeActive = false
  polled : c.transport.pollClosing = true → c.transport.closing = true
  driven : c.transport.active = true → c.webSocket.nativeTransport = true
  foreign : c.transport.closing = true → c.webSocket.nativeTransport = true
  fresh : ∀ callback ∈ c.log.owed, callback < c.log.callbacks
  nodup : c.log.owed.Nodup
  handed : ∀ callback ∈ c.socket.callbacks, callback ∈ c.log.handed
  native : c.webSocket.nativeTransport = true →
    c.socket.present = false ∧ c.socket.callbacks = []
  drained : c.socket.closed = true → c.webSocket.closed = true ∧ c.socket.callbacks = []
  closeSent : c.CloseQueued → c.session.session.closeSent = true
  requested : c.transport.pendingClose = true ∨ c.transport.gracefulCloseRequested = true →
    c.session.session.closing = true
  graceful : c.log.openedLate = false → c.transport.gracefulCloseRequested = true → c.Ending
  external : c.webSocket.closed = false → c.webSocket.external = true
  closed : c.webSocket.readyState = .closed → c.webSocket.closed = true
  shut : c.webSocket.nativeTransport = false → c.webSocket.closed = true →
    c.webSocket.readyState = .closed
  upgrading : c.webSocket.upgradePending = true → c.webSocket.closed = false
  upgraded : c.webSocket.upgradePending = false → c.webSocket.readyState ≠ .connecting
  spent : c.transport.closing = true → c.log.disrupted = false → c.Drained
  shutdowns : c.log.shutdowns ≤ 1
  unshut : c.transport.closing = false → c.transport.tlsShutdownGenerated = false →
    c.log.shutdowns = 0
  deadline : c.transport.gracefulCloseRequested = true → c.transport.closing = false →
    c.log.deadline = true

/-- The states in which the transport may be closed. -/
structure Closable (c : Connection Z) : Prop extends Stable c where
  pendingClose : c.transport.pendingClose = false
  reporting : c.transport.reportingError = true → c.Ending

/-- The states in which the native transport may tell its owner of the peer's close. -/
structure Telling (c : Connection Z) : Prop extends Stable c where
  pendingClose : c.transport.pendingClose = false
  severed : c.Severed

/-- The states in which the native transport may call its owner to end the connection. -/
structure Pausing (c : Connection Z) : Prop extends Telling c where
  told : c.Told

/-- The states in which the application may run. -/
structure Settled (c : Connection Z) : Prop extends Pausing c where
  reporting : c.transport.reportingError = true → c.Ending
  guarded : c.Guarded

/-- The states in which the native transport works. -/
structure Native (c : Connection Z) : Prop extends Pausing c where
  notReporting : c.transport.reportingError = false
  active : c.transport.active = true

/-- The states in which the event loop waits. -/
structure Waiting (c : Connection Z) : Prop extends Settled c where
  noneOwed : c.log.owed = []
  notFlushing : c.transport.flushingWrites = false
  notReporting : c.transport.reportingError = false
  released : c.transport.closing = true → c.transport.descriptorOpen = false

/-- The questions about the descriptor of the native transport and the TLS state over it. -/
def Query.usesDescriptor : Query → Bool
  | .sendmsg _ | .send _ | .recv | .pollInit | .pollStart _ => true
  | .sslWrite _ | .sslRead | .sslShutdown | .bioRead | .bioWrite => true
  | _ => false

/-- The native transport has its descriptor, and does not close. -/
structure Connection.Usable (c : Connection Z) : Prop where
  opened : c.transport.closing = false
  descriptorOpen : c.transport.descriptorOpen = true

/-- The occasion for code of the application to run: `close` is emitted by a WebSocket that is
closed, `error` by one that has failed, and a callback of a write is called as recorded. Over
the native transport, the failure has ended the connection. -/
def Listener.Occasion : Listener → Connection Z → Prop
  | .close _ _, c => c.webSocket.closed = true
  | .error, c => c.webSocket.socketError = true ∧
      (c.webSocket.nativeTransport = true → c.Ending)
  | .writeCallback callback failed, c => (callback, !failed) ∈ c.log.fired
  | _, _ => True

/-- The demands on a run. -/
def contract (Z : Zlib) : Contract Query Answer (Connection Z) where
  asks := fun q c =>
    match q with
    | .application listener => Settled c ∧ listener.Occasion c
    | .event => Waiting c
    | _ => Observed c ∧ (q.usesDescriptor = true → c.Usable)
  answers := anyAnswers

/-- The bytes pending are within a limit, or those of one request. -/
def Connection.Within (c : Connection Z) (limit serial : ℕ) : Prop :=
  c.transport.pendingBytes ≤ limit ∨ ∃ r, c.transport.queue = [r] ∧ r.serial = serial

/-- What every step keeps. -/
structure Persists (c c' : Connection Z) : Prop where
  tls : c'.transport.tls = c.transport.tls
  maxBackpressure : c'.transport.maxBackpressure = c.transport.maxBackpressure
  nativeTransport : c'.webSocket.nativeTransport = c.webSocket.nativeTransport
  present : c'.socket.present = c.socket.present
  flushing : c'.transport.flushingWrites = c.transport.flushingWrites
  reporting : c'.transport.reportingError = c.transport.reportingError
  active : c.transport.active = true → c'.transport.active = true
  closing : c.transport.closing = true → c'.transport.closing = true
  finished : c'.transport.closing = true → c'.transport.descriptorOpen = true →
    c.transport.closing = true ∧ c.transport.descriptorOpen = true
  submitted : c.log.submitted <+: c'.log.submitted
  callbacks : c.log.callbacks ≤ c'.log.callbacks
  fired : c.log.fired <+: c'.log.fired
  socketError : c.webSocket.socketError = true → c'.webSocket.socketError = true
  closed : c.webSocket.closed = true → c'.webSocket.closed = true
  ending : c.Ending → c'.Ending
  openedLate : c'.log.openedLate = c.log.openedLate
  misreported : c.log.misreported = true → c'.log.misreported = true
  sessionClosing : c.session.session.closing = true → c'.session.session.closing = true
  deadline : c.log.deadline = true → c'.log.deadline = true

/-- What every call keeps. -/
structure Rely (c c' : Connection Z) : Prop extends Persists c c' where
  deferred : ∀ r' ∈ c'.transport.queue, r'.deferred = true →
    r'.serial < c.log.submitted.length → ∃ r ∈ c.transport.queue, r.serial = r'.serial ∧
      r.deferred = true
  within : ∀ limit serial, c.transport.maxBackpressure ≤ limit →
    c.transport.maxBackpressure ≠ 0 → c'.transport.closing = false → c.Within limit serial →
      c'.Within limit serial

/-- Once the session has sent its Close frame, no other Close frame follows. -/
def Silent (c c' : Connection Z) : Prop :=
  c.session.session.closeSent = true →
    c'.session.session.closeSent = true ∧ (c'.CloseQueued → c.CloseQueued)

theorem Persists.refl (c : Connection Z) : Persists c c where
  tls := rfl
  maxBackpressure := rfl
  nativeTransport := rfl
  present := rfl
  flushing := rfl
  reporting := rfl
  active := id
  closing := id
  finished := fun h h' => ⟨h, h'⟩
  submitted := List.prefix_refl _
  callbacks := le_rfl
  fired := List.prefix_refl _
  socketError := id
  closed := id
  ending := id
  openedLate := rfl
  misreported := id
  sessionClosing := id
  deadline := id

theorem Persists.trans {c c' c'' : Connection Z} (h : Persists c c') (h' : Persists c' c'') :
    Persists c c'' where
  tls := h'.tls.trans h.tls
  maxBackpressure := h'.maxBackpressure.trans h.maxBackpressure
  nativeTransport := h'.nativeTransport.trans h.nativeTransport
  present := h'.present.trans h.present
  flushing := h'.flushing.trans h.flushing
  reporting := h'.reporting.trans h.reporting
  active := fun hactive => h'.active (h.active hactive)
  closing := fun hclosing => h'.closing (h.closing hclosing)
  finished := fun hclosing hopen =>
    (fun h₁ => h.finished h₁.1 h₁.2) (h'.finished hclosing hopen)
  submitted := h.submitted.trans h'.submitted
  callbacks := h.callbacks.trans h'.callbacks
  fired := h.fired.trans h'.fired
  socketError := fun herror => h'.socketError (h.socketError herror)
  closed := fun hclosed => h'.closed (h.closed hclosed)
  ending := fun hending => h'.ending (h.ending hending)
  openedLate := h'.openedLate.trans h.openedLate
  misreported := fun hmis => h'.misreported (h.misreported hmis)
  sessionClosing := fun hclosing => h'.sessionClosing (h.sessionClosing hclosing)
  deadline := fun hdeadline => h'.deadline (h.deadline hdeadline)

/-- The occasion for a listener remains. -/
theorem Listener.Occasion.persists {listener : Listener} {c c' : Connection Z}
    (h : listener.Occasion c) (hpersists : Persists c c') : listener.Occasion c' := by
  cases listener with
  | close code reason => exact hpersists.closed h
  | error => exact ⟨hpersists.socketError h.1, fun hnative =>
      hpersists.ending (h.2 (hpersists.nativeTransport.symm.trans hnative))⟩
  | writeCallback callback failed => exact hpersists.fired.subset h
  | message payload isBinary => trivial
  | upgrade => trivial
  | ticks => trivial
  | uncaughtException => trivial
  | turn => trivial

/-- A transport that is open now has been open all the time. -/
theorem Persists.opened {c c' : Connection Z} (h : Persists c c')
    (hopen : c'.transport.closing = false) : c.transport.closing = false := by
  by_contra hclosing
  rw [h.closing (by simpa using hclosing)] at hopen
  cases hopen

theorem Rely.refl (c : Connection Z) : Rely c c where
  toPersists := .refl c
  deferred := fun r hr hdeferred _ => ⟨r, hr, rfl, hdeferred⟩
  within := fun _ _ _ _ _ h => h

theorem Rely.trans {c c' c'' : Connection Z} (h : Rely c c') (h' : Rely c' c'') : Rely c c'' where
  toPersists := h.toPersists.trans h'.toPersists
  deferred := by
    intro r'' hr'' hdeferred hold
    obtain ⟨r', hr', hserial, hdeferred'⟩ :=
      h'.deferred r'' hr'' hdeferred (hold.trans_le h.submitted.length_le)
    obtain ⟨r, hr, hserial', hdeferred''⟩ := h.deferred r' hr' hdeferred' (hserial ▸ hold)
    exact ⟨r, hr, hserial'.trans hserial, hdeferred''⟩
  within := by
    intro limit serial hlimit hlimited hopen hwithin
    exact h'.within limit serial (h.maxBackpressure.trans_le hlimit)
      (h.maxBackpressure ▸ hlimited) hopen
      (h.within limit serial hlimit hlimited (h'.opened hopen) hwithin)

theorem Silent.refl (c : Connection Z) : Silent c c := fun h => ⟨h, id⟩

theorem Silent.trans {c c' c'' : Connection Z} (h : Silent c c') (h' : Silent c' c'') :
    Silent c c'' := by
  intro hsent
  obtain ⟨hsent', hqueued⟩ := h hsent
  obtain ⟨hsent'', hqueued'⟩ := h' hsent'
  exact ⟨hsent'', fun hclose => hqueued (hqueued' hclose)⟩

/-- What a call leaves that has taken over a callback. -/
structure Leaves (callback : Option WriteCallback) (c c' : Connection Z) : Prop where
  settled : Settled c'
  rely : Rely c c'
  silent : Silent c c'
  owed : c.log.owed = callback.toList ++ c'.log.owed

theorem Settled.closable {c : Connection Z} (h : Settled c) : Closable c :=
  ⟨h.toStable, h.pendingClose, h.reporting⟩

theorem Native.closable {c : Connection Z} (h : Native c) : Closable c :=
  ⟨h.toStable, h.pendingClose, fun hreporting =>
    absurd (hreporting.symm.trans h.notReporting) (by decide)⟩

theorem Native.uses {c : Connection Z} (h : Native c) (hopen : c.transport.closing = false) :
    c.Usable := ⟨hopen, h.toStable.usable hopen (.inl h.active)⟩

theorem Native.settled {c : Connection Z} (h : Native c) (hguarded : c.Guarded) : Settled c :=
  ⟨h.toPausing, h.closable.reporting, hguarded⟩

/-- Once `readyState` is past `OPEN`, the application may run. -/
theorem Pausing.settled {c : Connection Z} (h : Pausing c) (hending : c.Ending) : Settled c where
  toPausing := h
  reporting := fun _ => hending
  guarded := by
    intro _ _
    left
    rcases hending with hstate | hstate <;> rw [hstate] <;> decide

/-- Once the transport is closing, the application may run. -/
theorem Closable.settled {c : Connection Z} (h : Closable c)
    (hclosing : c.transport.closing = true) : Settled c where
  toStable := h.toStable
  pendingClose := h.pendingClose
  severed := fun _ _ => hclosing
  told := fun _ hopen => absurd (hclosing.symm.trans hopen) (by decide)
  reporting := h.reporting
  guarded := fun _ _ => .inr hclosing

theorem Leaves.refl {c : Connection Z} (h : Settled c) : Leaves none c c :=
  ⟨h, .refl c, .refl c, rfl⟩

theorem Leaves.trans {c c' c'' : Connection Z} {callback : Option WriteCallback}
    (h : Leaves none c c') (h' : Leaves callback c' c'') : Leaves callback c c'' :=
  ⟨h'.settled, h.rely.trans h'.rely, h.silent.trans h'.silent, h.owed.trans h'.owed⟩

/-- What a function of the native transport leaves. -/
structure Keeps (c c' : Connection Z) : Prop where
  native : Native c'
  rely : Rely c c'
  silent : Silent c c'
  owed : c.log.owed = c'.log.owed
  guarded : c.Guarded → c'.Guarded

theorem Keeps.refl {c : Connection Z} (h : Native c) : Keeps c c :=
  ⟨h, .refl c, .refl c, rfl, id⟩

theorem Keeps.trans {c c' c'' : Connection Z} (h : Keeps c c') (h' : Keeps c' c'') : Keeps c c'' :=
  ⟨h'.native, h.rely.trans h'.rely, h.silent.trans h'.silent, h.owed.trans h'.owed,
    fun hguarded => h'.guarded (h.guarded hguarded)⟩

theorem Leaves.keeps {c c' : Connection Z} (h : Leaves none c c') (hc : Native c) : Keeps c c' where
  native := ⟨h.settled.toPausing, h.rely.reporting.trans hc.notReporting, h.rely.active hc.active⟩
  rely := h.rely
  silent := h.silent
  owed := h.owed
  guarded := fun _ => h.settled.guarded

theorem Keeps.leaves {c c' : Connection Z} (h : Keeps c c') (hguarded : c.Guarded) :
    Leaves none c c' :=
  ⟨h.native.settled (h.guarded hguarded), h.rely, h.silent, h.owed⟩

end Eiows
