import Eiows.Session.Compression
import Eiows.WebSocket.Runs

/-!
# What a connection delivers

The invariant holds wherever a run asks its environment. Read off there, it says
what the peer, the kernel and the application get from a connection, whatever
they do themselves.
-/

namespace Eiows

open Interaction

variable {Z : Zlib} {settings : Settings} {compressionContext : Option (CompressionContext Z)}
  {takeover : Takeover} {q : Query} {c : Connection Z} {b : WriteCallback}

/-- The questions in which code of the application or the event loop sees the connection. -/
def Query.isVisible : Query → Bool
  | .application _ | .event => true
  | _ => false

/-- The question of the event loop. -/
def Query.isEvent : Query → Bool
  | .event => true
  | _ => false

namespace Reachable

/-- Some of the invariant holds at every question. -/
theorem observed (h : Reachable settings compressionContext takeover q c) : Observed c := by
  have hasks := h.asks
  cases q with
  | application listener => exact hasks.1.toObserved
  | event => exact hasks.toObserved
  | _ => exact hasks.1

/-- All of it holds where others can see the connection. -/
theorem settled (h : Reachable settings compressionContext takeover q c)
    (hvisible : q.isVisible = true) : Settled c := by
  have hasks := h.asks
  cases q with
  | application listener => exact hasks.1
  | event => exact hasks.toSettled
  | _ => cases hvisible

/-- A run may be followed in an environment that answers by a rule. -/
theorem of_follow {answer : ℕ → (q : Query) → Answer q} {n i : ℕ}
    (h : (run (callees Z n) takeover (Connection.start settings compressionContext)).follow
      answer 0 i = some (q, c)) : Reachable settings compressionContext takeover q c :=
  ⟨n, .of_follow (fun _ _ _ => trivial) h⟩

end Reachable

/-- The bytes of the queue behind those that the layer below has taken. -/
def Connection.unwritten (c : Connection Z) : Bytes :=
  match c.transport.queue with
  | [] => []
  | r :: rest => r.content.drop (r.sent + c.transport.tlsCommittedPlaintext) ++
      (rest.map (·.content)).flatten

/-- The ciphertext that the transport or the output BIO still holds. -/
def Connection.unsent (c : Connection Z) : Bytes :=
  c.transport.tlsCiphertext.drop c.transport.tlsCiphertextOffset ++ c.transport.nodeWriteBIO

/-- The transport is given up: the native one closes, or Node has closed its socket. -/
def Connection.isOver (c : Connection Z) : Bool :=
  if c.webSocket.nativeTransport then c.transport.closing else c.socket.closed

/-- The bytes of requests that are complete have been taken. -/
theorem Observed.bytesOf_prefix (h : Observed c) {n : ℕ} (hn : n ≤ c.log.completed) :
    c.log.bytesOf n <+: c.taken := by
  have hsplit : ∀ m, c.log.bytesOf m ++
      ((c.log.submitted.drop m).map (·.content)).flatten = c.log.submittedBytes := by
    intro m
    rw [Log.bytesOf, Log.submittedBytes, ← List.flatten_append, ← List.map_append,
      List.take_append_drop]
  have hcompleted : c.log.bytesOf c.log.completed <+: c.taken :=
    List.prefix_of_prefix_length_le ⟨_, hsplit _⟩ h.taken h.written
  refine List.IsPrefix.trans ?_ hcompleted
  rw [Log.bytesOf, Log.bytesOf]
  exact ((List.take_prefix_take_left hn).map _).flatten

/-- Where the transport is open, the bytes submitted are those taken, followed by those left. -/
theorem Stable.conserved (h : Stable c) (hopen : c.transport.closing = false) :
    c.log.submittedBytes = c.taken ++ c.unwritten := by
  have hposition := h.position hopen
  have hsplit : c.log.submittedBytes =
      c.log.bytesOf c.log.completed ++ (c.transport.queue.map (·.content)).flatten := by
    have hqueue : (c.log.submitted.drop c.log.completed).map (·.content) =
        c.transport.queue.map (·.content) := by
      rw [h.complete hopen, h.waiting, List.map_map]
      rfl
    rw [← hqueue, Log.bytesOf, Log.submittedBytes, ← List.flatten_append, ← List.map_append,
      List.take_append_drop]
  obtain ⟨left, hleft⟩ := h.taken
  have hdrop : left = (c.log.bytesOf c.log.completed ++
      (c.transport.queue.map (·.content)).flatten).drop c.taken.length := by
    rw [← hsplit, ← hleft, List.drop_left]
  rw [← hleft, hdrop, hposition]
  congr 1
  unfold Connection.unwritten
  cases hqueue : c.transport.queue with
  | nil =>
    apply List.drop_eq_nil_of_le
    rw [List.map_nil, List.flatten_nil, List.append_nil]
    omega
  | cons r rest =>
    have hoffset := (h.head_at hopen hqueue).offset_le
    rw [headSent, Nat.add_assoc, ← List.drop_drop, List.drop_left, List.map_cons,
      List.flatten_cons, List.drop_append_of_le_length hoffset]

/-- The bytes pending are those not taken yet, and on TLS those not committed yet. -/
theorem Stable.pending_unwritten (h : Stable c) (hopen : c.transport.closing = false) :
    c.transport.pendingBytes = c.transport.tlsCommittedPlaintext + c.unwritten.length := by
  have hwhole : ∀ {queue : List WriteRequest}, (∀ r ∈ queue, r.At 0 ∧ r.sent = 0) →
      (queue.map (·.remainingBytes)).sum = ((queue.map (·.content)).flatten).length := by
    intro queue hqueue
    rw [List.length_flatten, List.map_map]
    congr 1
    refine List.map_congr_left fun r hr => ?_
    obtain ⟨hat, hsent⟩ := hqueue r hr
    rw [WriteRequest.remainingBytes, hsent, Nat.sub_zero, hat.bytes]
    rfl
  unfold Connection.unwritten
  cases hqueue : c.transport.queue with
  | nil => rw [h.pending, h.idle hopen hqueue, hqueue]; rfl
  | cons r rest =>
    have hat := h.head_at hopen hqueue
    have hrest : ∀ r' ∈ rest, r'.At 0 ∧ r'.sent = 0 := fun r' hr' => h.behind r' (hqueue ▸ hr')
    have hbytes := hat.bytes
    have hoffset := hat.offset_le
    rw [h.head_pending hqueue, hwhole hrest, List.length_append, List.length_drop,
      WriteRequest.remainingBytes]
    omega

private theorem sixteen_pos : 0 < 16 := by
  decide

/-- Settings of a connection over the native transport. -/
def Settings.plain (tls : Bool) : Settings where
  nativeTransport := true
  tls
  textAsBuffer := false
  compressEnabled := false
  compressThreshold := 0
  maxBackpressure := 16
  maxPayload := 0
  negotiatedOptions := 0
  serverMaxWindowBits := 15
  maximumIOVectors := 16
  maximumIOVectors_pos := sixteen_pos

/-- The takeover with a response of two bytes. -/
def Takeover.short : Takeover := ⟨false, [0x48, 0x54], [], by decide⟩

/-- The answers of an environment that takes what it is given, and has nothing to say. -/
def calm : (q : Query) → Answer q
  | .sendmsg data => if h : 0 < data.flatten.length then .accepted _ h le_rfl else .wouldBlock
  | .send data => if h : 0 < data.length then .accepted _ h le_rfl else .wouldBlock
  | .recv => .wouldBlock
  | .pollStart _ => true
  | .pollInit => true
  | .sslWrite data => if h : 0 < data.length then .accepted _ h le_rfl data else .blocked false []
  | .sslRead => .blocked []
  | .sslShutdown => (true, [])
  | .bioRead => true
  | .bioWrite => true
  | .writable => true
  | .writableLength => (0 : ℕ)
  | .write _ => true
  | .application _ => .returned
  | .event => .turn

/-- The question with the given number, in the run that the answers lead to. -/
def Settings.replay (settings : Settings) (answer : ℕ → (q : Query) → Answer q) (i : ℕ) :
    Option (Query × Connection Zlib.sample) :=
  (run (callees Zlib.sample 12) .short (Connection.start settings none)).follow answer 0 i

/-- What a replay comes to is reachable. -/
theorem Settings.exists_reachable (settings : Settings) (answer : ℕ → (q : Query) → Answer q)
    (i : ℕ) (P : Query → Connection Zlib.sample → Bool)
    (h : (settings.replay answer i).any (fun p => P p.1 p.2) = true) :
    ∃ q c, Reachable settings none .short q c ∧ P q c = true := by
  obtain ⟨⟨q, c⟩, hreplay, hP⟩ := (Option.any_eq_true _ _).mp h
  exact ⟨q, c, .of_follow hreplay, hP⟩

/-- A message is sent with a callback and taken in part, and then the peer is gone. -/
def interrupted : ℕ → (q : Query) → Answer q
  | 6, .application .turn => .call (.send [0x61, 0x62] false false true)
  | 7, .sendmsg data =>
    if h : 1 ≤ data.flatten.length then .accepted 1 Nat.one_pos h else .wouldBlock
  | 8, .sendmsg _ => .wouldBlock
  | 12, .event => .poll true true false
  | 13, .recv => .eof
  | _, q => calm q

/-- What is submitted leaves in the order of submission, and completes in this order, each
request once the layer below has all its bytes: the kernel, or OpenSSL with its ciphertext sent. -/
structure Connection.InOrder (c : Connection Z) : Prop where
  taken : c.taken <+: c.log.submittedBytes
  descriptor : c.log.descriptor <+: c.log.ciphertext
  order : c.log.completions.map (·.1) = List.range c.log.completions.length
  statuses : ∃ cancelled, c.log.completions.map (·.2) =
    List.replicate c.log.completed 0 ++ cancelled ∧ ∀ status ∈ cancelled, status < 0
  completed : ∀ n ≤ c.log.completed, c.log.bytesOf n <+: c.taken
  staged : c.transport.tls = true → ∀ n, 0 < n → n ≤ c.log.completed →
    ∃ cut, ((c.log.bytesOf n).length, cut) ∈ c.log.staged ∧
      c.log.ciphertext.take cut <+: c.log.descriptor

/-- What is taken, sent and completed is in order whenever it is looked at. -/
theorem Observed.inOrder (h : Observed c) : c.InOrder := by
  refine ⟨h.taken, h.descriptor, h.order, h.statuses, fun n hn => h.bytesOf_prefix hn,
    fun htls n hpos hn => ?_⟩
  obtain ⟨cut, hstaged, hcut⟩ := h.sent htls n hpos hn
  refine ⟨cut, hstaged, List.prefix_of_prefix_length_le (List.take_prefix _ _) h.descriptor ?_⟩
  rw [List.length_take]
  omega

/-- The output is in order at every question of every run. -/
theorem outgoing_in_order (h : Reachable settings compressionContext takeover q c) : c.InOrder :=
  h.observed.inOrder

theorem outgoing_in_order_response : ∃ c : Connection Zlib.sample, c.transport.tls = true ∧
    c.log.completed = 1 ∧ c.log.descriptor = [0x48, 0x54] ∧ c.InOrder := by
  obtain ⟨q, c, h, hc⟩ := Settings.exists_reachable (.plain true) (fun _ => calm) 8
    (fun _ c => c.transport.tls ∧ c.log.completed = 1 ∧ c.log.descriptor = [0x48, 0x54])
    (by decide +kernel)
  obtain ⟨htls, hcompleted, hdescriptor⟩ := of_decide_eq_true hc
  exact ⟨c, htls, hcompleted, hdescriptor, outgoing_in_order h⟩

/-- No byte is lost: what was submitted is what was taken and what is queued, the pending bytes
count the latter, and all ciphertext is sent or kept. -/
structure Connection.Conserved (c : Connection Z) : Prop where
  submitted : c.log.submittedBytes = c.taken ++ c.unwritten
  pending : c.transport.pendingBytes = c.transport.tlsCommittedPlaintext + c.unwritten.length
  ciphertext : c.transport.tls = true → c.transport.reportingError = false →
    c.log.ciphertext = c.log.descriptor ++ c.unsent

theorem Stable.outputConserved (h : Stable c) (hopen : c.transport.closing = false) : c.Conserved := by
  refine ⟨h.conserved hopen, h.pending_unwritten hopen, fun htls hreporting => ?_⟩
  rw [h.cipher htls hopen hreporting, Connection.unsent, List.append_assoc]

/-- Nothing is lost while the transport is open. -/
theorem output_conserved (h : Reachable settings compressionContext takeover q c)
    (hvisible : q.isVisible = true) (hopen : c.transport.closing = false) : c.Conserved :=
  (h.settled hvisible).toStable.outputConserved hopen

theorem output_conserved_interrupted : ∃ c : Connection Zlib.sample,
    c.taken = [0x48, 0x54, 0x81] ∧ c.unwritten = [0x02, 0x61, 0x62] ∧ c.Conserved := by
  obtain ⟨q, c, h, hc⟩ := Settings.exists_reachable (.plain false) interrupted 12
    (fun q c => q.isVisible ∧ c.transport.closing = false ∧ c.taken = [0x48, 0x54, 0x81] ∧
      c.unwritten = [0x02, 0x61, 0x62]) (by decide +kernel)
  obtain ⟨hvisible, hopen, htaken, hunwritten⟩ := of_decide_eq_true hc
  exact ⟨c, htaken, hunwritten, output_conserved h hvisible hopen⟩

/-- The write queue is accounted for. The bytes pending are those of its requests, whose cursors
agree with the bytes sent; `submit` leaves at most `maxBackpressure` bytes in an open transport;
and a transport without a descriptor has no request. -/
structure Connection.Accounted (c : Connection Z) : Prop where
  pending : c.transport.pendingBytes = (c.transport.queue.map (·.remainingBytes)).sum
  counted : ∀ r ∈ c.transport.queue, r.sent ≤ r.bytes ∧ r.bytes = r.content.length
  cursors : c.transport.closing = false → ∀ r rest, c.transport.queue = r :: rest →
    r.At (r.sent + c.transport.tlsCommittedPlaintext) ∧ ∀ r' ∈ rest, r'.At 0 ∧ r'.sent = 0
  bounded : ∀ p ∈ c.log.returns, p.2 = false → c.transport.maxBackpressure ≠ 0 →
    p.1 ≤ c.transport.maxBackpressure
  released : c.transport.descriptorOpen = false →
    c.transport.queue = [] ∧ c.transport.pendingBytes = 0

theorem Stable.accounted (h : Stable c) : c.Accounted := by
  refine ⟨h.pending, h.counted, fun hopen r rest hqueue => ⟨h.head_at hopen hqueue, ?_⟩, h.returns,
    fun hfd => ?_⟩
  · exact fun r' hr' => h.behind r' (hqueue ▸ hr')
  have hempty := h.finished hfd
  refine ⟨hempty, ?_⟩
  rw [h.pending, hempty]
  rfl

/-- The write queue is accounted for wherever others see it. -/
theorem write_queue_accounted (h : Reachable settings compressionContext takeover q c)
    (hvisible : q.isVisible = true) : c.Accounted :=
  (h.settled hvisible).toStable.accounted

theorem write_queue_accounted_interrupted : ∃ c : Connection Zlib.sample,
    c.transport.queue.map (·.sent) = [1] ∧ c.transport.pendingBytes = 3 ∧ c.Accounted := by
  obtain ⟨q, c, h, hc⟩ := Settings.exists_reachable (.plain false) interrupted 12
    (fun q c => q.isVisible ∧ c.transport.queue.map (·.sent) = [1] ∧ c.transport.pendingBytes = 3)
    (by decide +kernel)
  obtain ⟨hvisible, hsent, hpending⟩ := of_decide_eq_true hc
  exact ⟨c, hsent, hpending, write_queue_accounted h hvisible⟩

/-- A callback is called or scheduled at most once. -/
theorem Observed.fired_once (h : Observed c) (hreported : c.log.misreported = false)
    (b : WriteCallback) : (c.log.fired.map (·.1)).count b ≤ 1 := by
  have hcharge := h.charged hreported b
  unfold Connection.charges at hcharge
  split at hcharge <;> omega

/-- It was given to `send` or `sendFrame`. -/
theorem Observed.fired_given (h : Observed c) (hreported : c.log.misreported = false)
    (hmem : b ∈ c.log.fired.map (·.1)) : b < c.log.callbacks := by
  by_contra hfuture
  have hcharge := h.charged hreported b
  rw [if_neg hfuture, Connection.charges] at hcharge
  have hpos := List.count_pos_iff.mpr hmem
  omega

/-- Where the event loop waits and no write is left, each one that was given has been called or
scheduled. -/
theorem Waiting.fired_all (h : Waiting c) (hreported : c.log.misreported = false)
    (hqueue : c.transport.queue = []) (hcallbacks : c.socket.callbacks = []) (b : WriteCallback) :
    (c.log.fired.map (·.1)).count b = if b < c.log.callbacks then 1 else 0 := by
  have hcharge := h.charged hreported b
  rw [Connection.charges, h.noneOwed, hqueue, hcallbacks] at hcharge
  simpa [deferredCallbacks] using hcharge

/-- A callback of `send` or `sendFrame` is called or scheduled at most once, without an error only
if all bytes of its frame were handed over, and exactly once by the time the transport is given up
and the event loop waits. Writes whose failure could not be reported are the exception. -/
theorem callbacks_settled (h : Reachable settings compressionContext takeover q c)
    (hreported : c.log.misreported = false) :
    (∀ b, (c.log.fired.map (·.1)).count b ≤ 1) ∧
      (∀ b, (b, true) ∈ c.log.fired → c.log.Paid b) ∧
      (∀ b ∈ c.log.fired.map (·.1), b < c.log.callbacks) ∧
      (q = .event → c.isOver = true → ∀ b,
        (c.log.fired.map (·.1)).count b = if b < c.log.callbacks then 1 else 0) := by
  have hobserved := h.observed
  refine ⟨hobserved.fired_once hreported, hobserved.paid,
    fun b hmem => hobserved.fired_given hreported hmem, ?_⟩
  rintro rfl hover
  have hwaiting : Waiting c := h.asks
  unfold Connection.isOver at hover
  split at hover
  · next hnative =>
    exact hwaiting.fired_all hreported (hwaiting.finished (hwaiting.released hover))
      (hwaiting.native hnative).2
  · next hfallback =>
    have hinactive := Bool.eq_false_of_not_eq_true fun hactive =>
      hfallback (hwaiting.driven hactive)
    exact hwaiting.fired_all hreported (hwaiting.unused hinactive) (hwaiting.drained hover).2

theorem callbacks_settled_interrupted : ∃ c : Connection Zlib.sample,
    c.log.callbacks = 1 ∧ c.log.fired = [(0, false)] ∧
      ∀ b, (c.log.fired.map (·.1)).count b = if b < c.log.callbacks then 1 else 0 := by
  obtain ⟨q, c, h, hc⟩ := Settings.exists_reachable (.plain false) interrupted 16
    (fun q c => q.isEvent ∧ c.isOver ∧ c.log.misreported = false ∧ c.log.callbacks = 1 ∧
      c.log.fired = [(0, false)]) (by decide +kernel)
  obtain ⟨hevent, hover, hreported, hcallbacks, hfired⟩ := of_decide_eq_true hc
  cases q with
  | event => exact ⟨c, hcallbacks, hfired, (callbacks_settled h hreported).2.2.2 rfl hover⟩
  | _ => cases hevent

/-- There is at most one Close frame. -/
theorem Orderly.countP_le {frames : List (Outgoing × Bytes)} (h : Orderly frames) :
    frames.countP isCloseFrame ≤ 1 := by
  unfold Orderly at h
  induction frames with
  | nil => exact Nat.zero_le 1
  | cons frame frames ih =>
    obtain ⟨hfollows, hrest⟩ := List.pairwise_cons.mp h
    by_cases hclose : isCloseFrame frame = true
    · have hnone : frames.countP isCloseFrame = 0 :=
        List.countP_eq_zero.mpr fun later hmem hlater =>
          absurd (hlater.symm.trans (hfollows later hmem hclose).1) (by decide)
      rw [List.countP_cons_of_pos hclose, hnone]
    · rw [List.countP_cons_of_neg hclose]
      exact ih hrest

/-- The frames are in order where the WebSocket was opened before its session had ended. -/
theorem Observed.framesOrderly (h : Observed c)
    (honTime : c.webSocket.nativeTransport = true → c.log.openedLate = false) :
    Orderly c.log.frames := by
  refine h.orderly (Bool.eq_false_of_not_eq_true fun hlate => ?_)
  exact absurd ((honTime (h.late hlate)).symm.trans hlate) (by decide)

/-- A WebSocket hands over at most one Close frame, and no data frame after it. Over the native
transport it must have been opened before its session had ended. -/
theorem frames_orderly (h : Reachable settings compressionContext takeover q c)
    (honTime : c.webSocket.nativeTransport = true → c.log.openedLate = false) :
    c.log.frames.countP isCloseFrame ≤ 1 ∧
      ∀ before frame after, c.log.frames = before ++ frame :: after → isCloseFrame frame = true →
        ∀ later ∈ after, isDataFrame later = false ∧ isCloseFrame later = false := by
  have horderly := h.observed.framesOrderly honTime
  refine ⟨horderly.countP_le, ?_⟩
  intro before frame after hsplit hclose later hmem
  rw [hsplit] at horderly
  have hfollows := (List.pairwise_cons.mp (List.pairwise_append.mp horderly).2.1).1
  exact (hfollows later hmem hclose).symm

/-- Two calls of `close`, and a message behind them. -/
def closedTwice : ℕ → (q : Query) → Answer q
  | 6, .application .turn => .call (.close (some 1000) [])
  | 8, .application .turn => .call (.close none [])
  | 9, .application .turn => .call (.send [0x61] true false false)
  | _, q => calm q

theorem frames_orderly_closedTwice : ∃ c : Connection Zlib.sample,
    c.log.frames = [(.response, [0x48, 0x54]), (.close, [0x88, 0x02, 0x03, 0xe8])] ∧
      c.log.frames.countP isCloseFrame ≤ 1 := by
  obtain ⟨q, c, h, hc⟩ := Settings.exists_reachable (.plain false) closedTwice 12
    (fun _ c => c.log.openedLate = false ∧
      c.log.frames = [(.response, [0x48, 0x54]), (.close, [0x88, 0x02, 0x03, 0xe8])])
    (by decide +kernel)
  obtain ⟨honTime, hframes⟩ := of_decide_eq_true hc
  exact ⟨c, hframes, (frames_orderly h fun _ => honTime).1⟩

/-- The WebSocket and its transport agree about the state of the connection. -/
structure Connection.LayersAgree (c : Connection Z) : Prop where
  opened : c.webSocket.nativeTransport = true → c.webSocket.readyState = .opened →
    c.transport.active = true
  closed : c.webSocket.readyState = .closed → c.webSocket.closed = true
  external : c.webSocket.closed = false → c.webSocket.external = true
  upgrading : c.webSocket.upgradePending = true → c.webSocket.closed = false
  upgraded : c.webSocket.upgradePending = false → c.webSocket.readyState ≠ .connecting
  severed : c.transport.active = true →
    c.transport.sessionAttached = false ∨ c.webSocket.closed = true → c.transport.closing = true
  reporting : c.transport.reportingError = true → c.Ending

/-- The layers agree wherever others see the connection. Between two turns of the event loop, a
transport that closes has given up its descriptor too, and no error is being reported. -/
theorem layers_agree (h : Reachable settings compressionContext takeover q c)
    (hvisible : q.isVisible = true) :
    c.LayersAgree ∧ (q = .event → c.transport.reportingError = false ∧
      (c.transport.closing = true → c.transport.descriptorOpen = false)) := by
  have hsettled := h.settled hvisible
  refine ⟨⟨fun hnative hopen => ?_, hsettled.closed, hsettled.external, hsettled.upgrading,
    hsettled.upgraded, fun hactive hgone => hsettled.severed hactive ?_, hsettled.reporting⟩, ?_⟩
  · by_contra hinactive
    exact (hsettled.quiet hnative (by simpa using hinactive)).1 hopen
  · exact hgone.imp_right fun hclosed => ⟨hclosed, hsettled.driven hactive⟩
  · rintro rfl
    have hwaiting : Waiting c := h.asks
    exact ⟨hwaiting.notReporting, hwaiting.released⟩

theorem layers_agree_interrupted : ∃ c : Connection Zlib.sample,
    c.transport.closing = true ∧ c.transport.descriptorOpen = false ∧ c.LayersAgree := by
  obtain ⟨q, c, h, hc⟩ := Settings.exists_reachable (.plain false) interrupted 16
    (fun q c => q.isVisible ∧ c.transport.closing ∧ c.transport.descriptorOpen = false)
    (by decide +kernel)
  obtain ⟨hvisible, hclosing, hfd⟩ := of_decide_eq_true hc
  exact ⟨c, hclosing, hfd, (layers_agree h hvisible).1⟩

/-- The kernel, libuv and OpenSSL are asked only about a descriptor that is open, and only
while the transport does not close. -/
theorem descriptor_in_use (h : Reachable settings compressionContext takeover q c)
    (huses : q.usesDescriptor = true) :
    c.transport.closing = false ∧ c.transport.descriptorOpen = true ∧
      c.transport.destroyed = false := by
  have huse : Observed c ∧ c.Usable := by
    have hasks := h.asks
    cases q with
    | application listener => cases huses
    | event => cases huses
    | _ => exact ⟨hasks.1, hasks.2 huses⟩
  obtain ⟨hobserved, hopen, hfd⟩ := huse
  refine ⟨hopen, hfd, Bool.eq_false_of_not_eq_true fun hdestroyed => ?_⟩
  exact absurd ((hobserved.deleted hdestroyed).symm.trans hfd) (by decide)

theorem descriptor_in_use_response : ∃ c : Connection Zlib.sample,
    c.transport.queue.map (·.bytes) = [2] ∧ c.transport.closing = false ∧
      c.transport.descriptorOpen = true ∧ c.transport.destroyed = false := by
  obtain ⟨q, c, h, hc⟩ := Settings.exists_reachable (.plain true) (fun _ => calm) 3
    (fun q c => q.usesDescriptor ∧ c.transport.queue.map (·.bytes) = [2]) (by decide +kernel)
  obtain ⟨huses, hqueue⟩ := of_decide_eq_true hc
  exact ⟨c, hqueue, descriptor_in_use h huses⟩

/-- Listeners and callbacks run only on their occasion, also where they run inside of each
other: `close` once the WebSocket is closed, `error` once it has failed, and a callback of a
write as the log has it. -/
theorem listeners_on_occasion {listener : Listener}
    (h : Reachable settings compressionContext takeover (.application listener) c) :
    listener.Occasion c := by
  have hasks := h.asks
  exact hasks.2

/-- The question is about the callback of a write that failed. -/
def Query.isFailedWrite : Query → Bool
  | .application (.writeCallback _ failed) => failed
  | _ => false

theorem listeners_on_occasion_interrupted : ∃ (b : WriteCallback) (c : Connection Zlib.sample),
    Reachable (.plain false) none .short (.application (.writeCallback b true)) c ∧
      (b, false) ∈ c.log.fired := by
  obtain ⟨q, c, h, hc⟩ := Settings.exists_reachable (.plain false) interrupted 14
    (fun q _ => q.isFailedWrite) (by decide +kernel)
  cases q with
  | application listener =>
    cases listener with
    | writeCallback b failed =>
      have hfailed : failed = true := hc
      subst hfailed
      exact ⟨b, c, h, listeners_on_occasion h⟩
    | _ => cases hc
  | _ => cases hc

end Eiows
