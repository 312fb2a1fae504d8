import Mathlib.Algebra.Order.BigOperators.Group.List
import Eiows.WebSocket.Delivery

/-!
# What a connection promises

Bytes leave in the order of submission, and none is lost. What is pending is counted
exactly, and nothing is left of it when the peer's close has led to the end. A callback of
a write fires once, and a Close frame is the last frame but for control frames. The last
two fail in one case each: an exception out of `_fail`, and a WebSocket that is opened when
its session has ended.
-/

namespace Eiows

open Interaction

variable {Z : Zlib} {settings : Settings} {compressionContext : Option (CompressionContext Z)}
  {takeover : Takeover} {q : Query} {c : Connection Z}

/-- What is submitted leaves and completes in the order of submission, at every question of every
run. Where others see an open transport, what was submitted is what was taken and what is queued. -/
theorem submissions_leave_in_order (h : Reachable settings compressionContext takeover q c) :
    c.InOrder ∧ (q.isVisible = true → c.transport.closing = false → c.Conserved) :=
  ⟨h.observed.inOrder, fun hvisible hopen => (h.settled hvisible).toStable.outputConserved hopen⟩

/-- A response over TLS, whose ciphertext is sent byte by byte. -/
def trickled : ℕ → (q : Query) → Answer q
  | _, .send data => if h : 1 ≤ data.length then .accepted 1 Nat.one_pos h else .wouldBlock
  | _, q => calm q

theorem submissions_leave_in_order_trickled : ∃ c : Connection Zlib.sample,
    c.taken = [0x48, 0x54] ∧ c.log.descriptor = [0x48] ∧ c.unsent = [0x54] ∧ c.InOrder ∧
      c.Conserved := by
  obtain ⟨q, c, h, hc⟩ := Settings.exists_reachable (.plain true) trickled 7
    (fun q c => q.isVisible ∧ c.transport.closing = false ∧ c.taken = [0x48, 0x54] ∧
      c.log.descriptor = [0x48] ∧ c.unsent = [0x54]) (by decide +kernel)
  obtain ⟨hvisible, hopen, htaken, hdescriptor, hunsent⟩ := of_decide_eq_true hc
  obtain ⟨horder, hconserved⟩ := submissions_leave_in_order h
  exact ⟨c, htaken, hdescriptor, hunsent, horder, hconserved hvisible hopen⟩

/-- The cursor of the request at the head is behind the bytes that count as sent or staged. -/
def Connection.HeadCounted (c : Connection Z) : Prop :=
  ∀ r ∈ c.transport.queue.head?, r.At (r.sent + c.transport.tlsCommittedPlaintext)

/-- The counters of the write queue agree with its requests, and what is subtracted from them
is there. `submit` leaves at most `maxBackpressure` bytes in an open transport, and a transport
that has cancelled its requests has none. -/
structure Connection.Counted (c : Connection Z) : Prop where
  pending : c.transport.pendingBytes = (c.transport.queue.map (·.remainingBytes)).sum
  request : ∀ r ∈ c.transport.queue, r.sent ≤ r.bytes ∧ r.remainingBytes ≤ c.transport.pendingBytes
  behind : ∀ r ∈ c.transport.queue.tail, r.At 0 ∧ r.sent = 0
  head : c.transport.closing = false → c.HeadCounted
  staged : c.transport.closing = false →
    c.transport.tlsCommittedPlaintext ≤ ((c.transport.queue.map (·.remainingBytes)).headD 0)
  bounded : ∀ p ∈ c.log.returns, p.2 = false → c.transport.maxBackpressure ≠ 0 →
    p.1 ≤ c.transport.maxBackpressure
  released : c.transport.descriptorOpen = false →
    c.transport.queue = [] ∧ c.transport.pendingBytes = 0

theorem Stable.queueCounted (h : Stable c) : c.Counted where
  pending := h.pending
  request := by
    intro r hr
    refine ⟨(h.counted r hr).1, ?_⟩
    rw [h.pending]
    exact List.le_sum_of_mem (List.mem_map.mpr ⟨r, hr, rfl⟩)
  behind := h.behind
  head := h.head
  staged := by
    intro hopen
    cases hqueue : c.transport.queue with
    | nil => exact (h.idle hopen hqueue).le
    | cons r rest =>
      have hat := h.head_at hopen hqueue
      have hoffset := hat.offset_le
      have hbytes := hat.bytes
      show _ ≤ r.bytes - r.sent
      omega
  bounded := h.returns
  released := h.accounted.released

/-- A transport that closes takes no request. -/
theorem NativeTransport.submit_of_closing (hclosing : c.transport.closing = true) (k : Callees Z)
    (kind : Outgoing) (request : WriteRequest) :
    NativeTransport.submit k kind request c = .done (.status UV_EBADF) c := by
  have hwritable : c.transport.writable = false := by
    simp [NativeTransport.writable, hclosing]
  show (if !c.transport.writable then _ else _ : Run Z NativeResult) c = _
  rw [hwritable]
  rfl

/-- The counters of the write queue are exact wherever others see it. A transport that closes takes
no request, and between two turns of the event loop it has none. -/
theorem pending_bytes_exact (h : Reachable settings compressionContext takeover q c)
    (hvisible : q.isVisible = true) :
    c.Counted ∧
      (c.transport.closing = true → ∀ k kind request,
        NativeTransport.submit k kind request c = .done (.status UV_EBADF) c) ∧
      (q = .event → c.transport.closing = true →
        c.transport.queue = [] ∧ c.transport.pendingBytes = 0) := by
  have hcounted := (h.settled hvisible).toStable.queueCounted
  refine ⟨hcounted,
    fun hclosing k kind request => NativeTransport.submit_of_closing hclosing k kind request, ?_⟩
  rintro rfl hclosing
  have hwaiting : Waiting c := h.asks
  exact hcounted.released (hwaiting.released hclosing)

theorem pending_bytes_exact_trickled : ∃ c : Connection Zlib.sample,
    c.transport.pendingBytes = 2 ∧ c.transport.tlsCommittedPlaintext = 2 ∧ c.Counted := by
  obtain ⟨q, c, h, hc⟩ := Settings.exists_reachable (.plain true) trickled 7
    (fun q c => q.isVisible ∧ c.transport.pendingBytes = 2 ∧ c.transport.tlsCommittedPlaintext = 2)
    (by decide +kernel)
  obtain ⟨hvisible, hpending, hcommitted⟩ := of_decide_eq_true hc
  exact ⟨c, hpending, hcommitted, (pending_bytes_exact h hvisible).1⟩

/-- Two messages over TLS. The ciphertext of the first one is not sent, and the connection is
terminated. -/
def abandoned : ℕ → (q : Query) → Answer q
  | 9, .application .turn => .call (.send [0x61] true false true)
  | 12, .send _ => .wouldBlock
  | 14, .application .turn => .call (.send [0x62] true false true)
  | 15, .application .turn => .call .terminate
  | _, q => calm q

/-- The staged bytes of a request that is cancelled still count when its callback is called, and
another request is at the head. -/
theorem head_not_counted : ∃ q c, Reachable (Z := Zlib.sample) (.plain true) none .short q c ∧
    q.isVisible = true ∧ c.transport.tls = true ∧ ¬c.HeadCounted := by
  obtain ⟨q, c, h, hc⟩ := Settings.exists_reachable (.plain true) abandoned 16
    (fun q c => q.isVisible ∧ c.transport.tls ∧ c.transport.queue.head?.any fun r =>
      r.remaining ≠ r.content.drop (r.sent + c.transport.tlsCommittedPlaintext))
    (by decide +kernel)
  obtain ⟨hvisible, htls, hany⟩ := of_decide_eq_true hc
  refine ⟨q, c, h, hvisible, htls, fun hcounted => ?_⟩
  obtain ⟨r, hr, hne⟩ := (Option.any_eq_true _ _).mp hany
  exact of_decide_eq_true hne (hcounted r hr).remaining

/-- A message is taken in part, and the peer is gone. libuv closes the poll, and the WebSocket is
finalised. -/
def finalized : ℕ → (q : Query) → Answer q
  | 16, .event => .pollClosed
  | i, q => interrupted i q

/-- A Close frame is the last one but for control frames, and there is only one, unless the
WebSocket was opened over the native transport when its session had ended. -/
theorem close_frame_last (h : Reachable settings compressionContext takeover q c)
    (honTime : c.webSocket.nativeTransport = true → c.log.openedLate = false) :
    Orderly c.log.frames ∧ c.log.frames.countP isCloseFrame ≤ 1 :=
  have horderly := h.observed.framesOrderly honTime
  ⟨horderly, horderly.countP_le⟩

/-- A message, `close`, and a message and a call of `close` behind it. -/
def closedAfter : ℕ → (q : Query) → Answer q
  | 6, .application .turn => .call (.send [0x61] true false false)
  | 8, .application .turn => .call (.close (some 1000) [])
  | 10, .application .turn => .call (.send [0x62] true false false)
  | 11, .application .turn => .call (.close none [])
  | _, q => calm q

theorem close_frame_last_closedAfter : ∃ c : Connection Zlib.sample,
    c.log.frames.map (·.2) = [[0x48, 0x54], [0x82, 0x01, 0x61], [0x88, 0x02, 0x03, 0xe8]] ∧
      Orderly c.log.frames := by
  obtain ⟨q, c, h, hc⟩ := Settings.exists_reachable (.plain false) closedAfter 14
    (fun _ c => c.log.openedLate = false ∧
      c.log.frames.map (·.2) = [[0x48, 0x54], [0x82, 0x01, 0x61], [0x88, 0x02, 0x03, 0xe8]])
    (by decide +kernel)
  obtain ⟨honTime, hframes⟩ := of_decide_eq_true hc
  exact ⟨c, hframes, (close_frame_last h fun _ => honTime).1⟩

/-- The Close frame of a TLS peer is read when the transport is activated, the reply is not sent at
once, and the callback of the upgrade sends a message. -/
def closedEarly : ℕ → (q : Query) → Answer q
  | 1, .sslRead => .data [0x88, 0x80, 0, 0, 0, 0] (by decide) (by decide) false []
  | 9, .application .upgrade => .call (.send [0x61] true false false)
  | _, .send _ => .wouldBlock
  | _, q => calm q

/-- The message follows the reply to the Close frame. -/
theorem data_frame_follows : ∃ q c, Reachable (Z := Zlib.sample) (.plain true) none .short q c ∧
    c.log.frames = [(.session, [0x88, 0x00]), (.response, [0x48, 0x54]),
      (.message .binary, [0x82, 0x01, 0x61])] ∧ ¬Orderly c.log.frames := by
  obtain ⟨q, c, h, hc⟩ := Settings.exists_reachable (.plain true) closedEarly 10
    (fun _ c => c.log.frames = [(.session, [0x88, 0x00]), (.response, [0x48, 0x54]),
      (.message .binary, [0x82, 0x01, 0x61])]) (by decide +kernel)
  have hframes := of_decide_eq_true hc
  refine ⟨q, c, h, hframes, fun horderly => ?_⟩
  rw [hframes] at horderly
  have hfollows := (List.pairwise_cons.mp horderly).1
  exact absurd (hfollows _ (.tail _ (.head _)) rfl).2 (by decide)

end Eiows
