import Eiows.InPlace.Reachable
import Eiows.Receiver.Chunks

/-!
# Streams in memory

Successive calls of `consume`, each on a chunk of its own, with `headerBuffer` kept
between them. Whoever reads the events when a call returns finds borrowed payloads in
the chunk. Over a whole stream these are the events of the receiver, which reads the
stream as one string and unmasks nothing in place.
-/

namespace Eiows

open Memory

variable {Z : Zlib}

/-- An event as `payloadData` and `payloadLength` show it: the bytes of a view, where
there is one. -/
def Event.shown (memory : Block → Bytes) : Option View → Event → Event
  | some v, .message _ opCode => .message (v.bytes memory) opCode
  | _, event => event

/-- The events of a call, as they show when it returns. -/
def BorrowingSession.shown (memory : Block → Bytes) (b : BorrowingSession Z) : List Event :=
  b.session.events.mapIdx fun i event =>
    event.shown memory (b.views.find? fun v => v.event == i)

namespace StreamWebSocket

/-- Successive calls of `consume` in memory, with the events of all of them. -/
def consumeAllInPlace (variant : UnmaskVariant) :
    List Bytes → Bytes → StreamWebSocket Z → Checked (StreamWebSocket Z × List Event)
  | [], _, ws => return (ws, [])
  | chunk :: rest, headerBuffer, ws => do
    let r ← ws.consumeInPlace variant headerBuffer chunk
    let (ws, others) ← consumeAllInPlace variant rest r.headerBuffer ⟨r.parser, r.session.session⟩
    return (ws, r.session.shown r.memory ++ others)

end StreamWebSocket

/-- Intact views show the payloads that were reported. -/
theorem Intact.shown {memory : Block → Bytes} {b : BorrowingSession Z} (h : Intact memory b) :
    b.shown memory = b.session.events := by
  apply List.ext_getElem?
  intro i
  rw [BorrowingSession.shown, List.getElem?_mapIdx]
  cases hfind : b.views.find? (fun v => v.event == i) with
  | none => simp [Event.shown]
  | some v =>
    have hevent : v.event = i := by simpa using List.find?_some hfind
    obtain ⟨opCode, hmessage⟩ := h.payload v (List.mem_of_find?_eq_some hfind)
    rw [hevent] at hmessage
    rw [hmessage, Option.map_some, Event.shown]

namespace StreamWebSocket

variable {ws : StreamWebSocket Z}

/-- A call on a short chunk returns, and shows the events of the session on lists. -/
theorem Representation.stepInPlace (h : ws.Representation) (variant : UnmaskVariant) {chunk : Bytes}
    (hchunk : chunk.length < 2 ^ 31) {headerBuffer : Bytes}
    (hsize : headerBuffer.length = headerBufferSize) :
    ∃ r, ws.consumeInPlace variant headerBuffer chunk = .ok r ∧
      r.headerBuffer.length = headerBufferSize ∧
      ws.consume chunk = ⟨r.parser, r.session.session⟩ ∧
      r.session.shown r.memory = (ws.consume chunk).events := by
  obtain ⟨-, r, hrun, hkept⟩ | ⟨hlong, -⟩ := consumeInPlace_run variant h chunk hsize
  · refine ⟨r, hrun, hkept.headerBuffer, hkept.state, ?_⟩
    rw [hkept.intact.shown, hkept.state]
    rfl
  · exact absurd (h.exactIn hchunk variant) hlong

/-- Successive calls on short chunks return, and show the events of the session on
lists. -/
theorem Representation.consumeAllInPlace (h : ws.Representation) (variant : UnmaskVariant)
    {chunks : List Bytes} (hchunks : ∀ chunk ∈ chunks, chunk.length < 2 ^ 31) {headerBuffer : Bytes}
    (hsize : headerBuffer.length = headerBufferSize) :
    ws.consumeAllInPlace variant chunks headerBuffer = .ok (ws.consumeAll chunks) := by
  induction chunks generalizing ws headerBuffer with
  | nil => rfl
  | cons chunk rest ih =>
    obtain ⟨r, hrun, hsize', hstate, hshown⟩ :=
      h.stepInPlace variant (hchunks chunk List.mem_cons_self) hsize
    have hrest := ih (consume_representation h chunk)
      (fun later hlater => hchunks later (List.mem_cons_of_mem chunk hlater)) hsize'
    rw [hstate] at hrest hshown
    simp only [StreamWebSocket.consumeAllInPlace, hrun, bind, Except.bind, hrest, hshown, pure,
      Except.pure, consumeAll, Streaming.runChunks, step, hstate]

end StreamWebSocket

/-- **Parsing in memory.** A stream is fed to a fresh session in any chunks. With any of the
unmasking loops and whatever `headerBuffer` holds, no call leaves its objects or its
types, and what the events show when the calls return is what the receiver reads
from the whole stream. -/
theorem stream_shown_exact (variant : UnmaskVariant)
    (negotiatedOptions serverMaxWindowBits maxPayload : ℕ)
    (compressionContext : Option (CompressionContext Z)) (chunks : List Bytes)
    (hchunks : ∀ chunk ∈ chunks, chunk.length < 2 ^ 31) {headerBuffer : Bytes}
    (hsize : headerBuffer.length = headerBufferSize) :
    let drained := (Receiver.decoder Z).drain
      (Receiver.create negotiatedOptions maxPayload compressionContext) chunks.flatten
    ∃ ws, (StreamWebSocket.create negotiatedOptions serverMaxWindowBits maxPayload
        compressionContext).consumeAllInPlace variant chunks headerBuffer = .ok (ws, drained.2.2) ∧
      ws.session.closing = drained.1.closing ∧ ws.session.closeSent = drained.1.closeSent := by
  intro drained
  have hfresh := StreamWebSocket.create_representation (Z := Z) negotiatedOptions
    serverMaxWindowBits maxPayload compressionContext
  obtain ⟨htracks, hevents⟩ := StreamWebSocket.consumeAll_create negotiatedOptions
    serverMaxWindowBits maxPayload compressionContext chunks hchunks
  refine ⟨_, ?_, htracks.closing⟩
  rw [hfresh.consumeAllInPlace variant hchunks hsize, ← hevents]

/-- A letter, cut inside its header and inside its mask. -/
theorem stream_shown_exact_letter :
    ∃ ws, (StreamWebSocket.create (Z := Zlib.sample) 0 15 0 none).consumeAllInPlace .avx2
        [[0x81], [0x81, 1, 2], [3, 4, 0x60]] (List.replicate 27 0) =
          .ok (ws, ((Receiver.decoder Zlib.sample).drain (Receiver.create 0 0 none)
            [0x81, 0x81, 1, 2, 3, 4, 0x60]).2.2) := by
  have hsize : (List.replicate 27 (0 : UInt8)).length = headerBufferSize := rfl
  obtain ⟨ws, hrun, -⟩ := stream_shown_exact (Z := Zlib.sample) .avx2 0 15 0 none
    [[0x81], [0x81, 1, 2], [3, 4, 0x60]] (by decide) hsize
  exact ⟨ws, hrun⟩

end Eiows
