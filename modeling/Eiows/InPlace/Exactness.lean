import Eiows.InPlace.Lengths

/-!
# How far the arithmetic is exact

The lengths of the parser and of the unmask loops have 32 bits, the quotient in
`consumeContinuation` is an `int`, and the vector loops add their width to an index
before they compare. This file states exactly which chunks keep all of these in their
types. The bytes are then those that the masking key gives, and the borrowed
messages show them.
-/

namespace Eiows

open Memory

section Loops

variable {key : Mask} {dst src count : ℕ} {buffer : Bytes}

theorem keystream_getElem? (key : Mask) (offset i : ℕ) (data : Bytes) :
    (keystream key offset data)[i]? = data[i]?.map (· ^^^ key.byte (offset + i)) := by
  induction data generalizing offset i with
  | nil => simp
  | cons b bs ih =>
    cases i with
    | zero => simp [keystream]
    | succ i =>
      simp only [keystream, List.getElem?_cons_succ, ih, Nat.add_assoc, Nat.add_comm 1 i]

/-- Each byte that is written is the byte that was there at first, under the key. -/
theorem unmasked_getElem? (h : dst ≤ src) (hinside : src + count ≤ buffer.length) {i : ℕ}
    (hi : i < count) : (InPlace.unmasked dst src count key 0 buffer)[dst + i]? =
      buffer[src + i]?.map (· ^^^ key.byte i) := by
  have hlength : (keystream key 0 (slice buffer src count)).length = count := by
    rw [keystream_length, slice_length hinside]
  have hself := @slice_overwrite_self _ buffer (keystream key 0 (slice buffer src count)) dst
    (by omega)
  have hread : (InPlace.unmasked dst src count key 0 buffer)[dst + i]? =
      (keystream key 0 (slice buffer src count))[i]? := by
    rw [← hself, hlength, slice, List.getElem?_take_of_lt hi, List.getElem?_drop]
    rfl
  rw [hread, keystream_getElem?, Nat.zero_add, slice, List.getElem?_take_of_lt hi,
    List.getElem?_drop]

/-- The other bytes are left alone. -/
theorem unmasked_getElem?_of_outside (h : dst ≤ src) (hinside : src + count ≤ buffer.length) {i : ℕ}
    (hi : i < dst ∨ dst + count ≤ i) :
    (InPlace.unmasked dst src count key 0 buffer)[i]? = buffer[i]? := by
  have hlength : (keystream key 0 (slice buffer src count)).length = count := by
    rw [keystream_length, slice_length hinside]
  rcases hi with hbefore | hbehind
  · have hkept := @take_overwrite_of_le _ buffer (keystream key 0 (slice buffer src count)) dst dst
      le_rfl (by omega)
    have hfront := congrArg (fun bytes => bytes[i]?) hkept
    simpa only [InPlace.unmasked, List.getElem?_take_of_lt hbefore] using hfront
  · have hkept := @drop_overwrite_of_le _ buffer (keystream key 0 (slice buffer src count)) dst
      (dst + count) (by omega) (by omega)
    have hback := congrArg (fun bytes => bytes[i - (dst + count)]?) hkept
    simpa only [InPlace.unmasked, List.getElem?_drop, Nat.add_sub_cancel' hbehind] using hback

/-- The loops of a variant write what they should exactly for the lengths below its
limit. -/
theorem unmaskImprecise_exact_iff (variant : UnmaskVariant) (key : Mask) {length : ℕ} (h : dst ≤ src)
    (hinside : src + length ≤ buffer.length) (hlength : length ≤ unsignedMax) :
    (∃ out, InPlace.unmaskImprecise variant dst src length key buffer = .ok out ∧
      (∀ i < length, out[dst + i]? = buffer[src + i]?.map (· ^^^ key.byte i)) ∧
      ∀ i, i < dst ∨ dst + length ≤ i → out[i]? = buffer[i]?) ↔
    length < InPlace.unmaskLimit variant := by
  have hlt : length < 2 ^ 32 := by
    unfold unsignedMax at hlength
    omega
  rw [InPlace.unmaskImprecise_eq variant key h hinside hlt]
  constructor
  · rintro ⟨out, hout, -⟩
    by_contra hlong
    rw [if_neg hlong] at hout
    cases hout
  · intro hshort
    rw [if_pos hshort]
    exact ⟨_, rfl, fun i hi => unmasked_getElem? h hinside hi,
      fun i hi => unmasked_getElem?_of_outside h hinside hi⟩

end Loops

variable {Z : Zlib}

/-- What a call of `consume` in memory should do: it stays in its types and objects, ends as
the session on lists does, and unmasks the rest of a frame by the key stream. -/
def StreamWebSocket.ConsumesExactly (variant : UnmaskVariant) (headerBuffer data : Bytes)
    (ws : StreamWebSocket Z) : Prop :=
  (∃ r, ws.consumeInPlace variant headerBuffer data = .ok r ∧
    ws.consume data = ⟨r.parser, r.session.session⟩) ∧
  ∀ call ∈ ws.parserCalls data, call.1.wantsHead = false →
    call.1.remainingBytes ≤ call.2.length →
      unmaskFinal (call.2.take call.1.remainingBytes) call.1.mask =
        keystream call.1.mask 0 (call.2.take call.1.remainingBytes)

theorem StreamWebSocket.Representation.consumesExactly_iff {ws : StreamWebSocket Z}
    (h : ws.Representation)
    (variant : UnmaskVariant) (data : Bytes) {headerBuffer : Bytes}
    (hsize : headerBuffer.length = headerBufferSize) :
    ws.ConsumesExactly variant headerBuffer data ↔ ws.ExactIn variant data := by
  rcases consumeInPlace_run variant h data hsize with ⟨hexact, r, hrun, hkept⟩ | ⟨hnot, hrun⟩
  · refine ⟨fun _ => hexact, fun _ => ⟨⟨r, hrun, hkept.state⟩, ?_⟩⟩
    intro call hcall hwants hwhole
    apply unmaskFinal_eq_keystream
    have hshort := hexact.1 call hcall hwants hwhole
    rw [List.length_take]
    omega
  · refine ⟨?_, fun hexact => absurd hexact hnot⟩
    rintro ⟨⟨r, hr, -⟩, -⟩
    rw [hrun] at hr
    cases hr

/-- What the views of a call should be: inside the caller's chunk, or empty, with the
payloads of their events, and disjoint. -/
def StreamWebSocket.BorrowsIntact (variant : UnmaskVariant) (headerBuffer data : Bytes)
    (ws : StreamWebSocket Z) : Prop :=
  ∃ r, ws.consumeInPlace variant headerBuffer data = .ok r ∧ r.chunk.length = data.length ∧
    (∀ v ∈ r.session.views,
      (v.length = 0 ∨ v.block = .chunk ∧ v.data + v.length ≤ data.length) ∧
      ∃ opCode, (ws.consume data).events[v.event]? = some (.message (v.bytes r.memory) opCode)) ∧
    r.session.views.Pairwise fun u v =>
      u.event < v.event ∧ (u.block = v.block → u.data + u.length ≤ v.data)

theorem StreamWebSocket.Representation.borrowsIntact_iff {ws : StreamWebSocket Z}
    (h : ws.Representation)
    (variant : UnmaskVariant) (data : Bytes) {headerBuffer : Bytes}
    (hsize : headerBuffer.length = headerBufferSize) :
    ws.BorrowsIntact variant headerBuffer data ↔ ws.ExactIn variant data := by
  rcases consumeInPlace_run variant h data hsize with ⟨hexact, r, hrun, hkept⟩ | ⟨hnot, hrun⟩
  · refine ⟨fun _ => hexact, fun _ => ⟨r, hrun, hkept.chunk, ?_, hkept.intact.disjoint⟩⟩
    intro v hv
    constructor
    · cases hblock : v.block with
      | header => exact .inl (hkept.borrowed v hv hblock)
      | chunk =>
        have hinside := hkept.intact.inside v hv
        rw [hblock] at hinside
        exact .inr ⟨rfl, hinside.trans_eq hkept.chunk⟩
    · rw [hkept.state]
      exact hkept.intact.payload v hv
  · refine ⟨?_, fun hexact => absurd hexact hnot⟩
    rintro ⟨r, hr, -⟩
    rw [hrun] at hr
    cases hr

section LongFrame

/-- Where `n * 4` wraps to a negative number, the scalar loop leaves the end of a frame
masked. -/
theorem unmaskFinal_of_wrapped {data : Bytes} (key : Mask) (h : data.length = 2 ^ 31) :
    unmaskFinal data key = data := by
  have hwrapped : intMul (2 ^ 31 / 4) 4 = -2 ^ 31 := by decide +kernel
  unfold unmaskFinal
  simp only [h, hwrapped]
  rfl

/-- A header of 14 bytes announces a binary message of `2 ^ 31` bytes. -/
def longHeader : Bytes := [0x82, 0xff, 0, 0, 0, 0, 0x80, 0, 0, 0, 1, 2, 3, 4]

/-- A session that has read this header, and nothing of the payload. -/
def waiting : StreamWebSocket Zlib.sample :=
  ((StreamWebSocket.create 0 15 0 none).invokeAll [.consume longHeader]).2

theorem waiting_state : waiting.parser =
    { wantsHead := false, opStack := 0, opCode := #v[.binary, .none], remainingBytes := 2 ^ 31,
      mask := #v[1, 2, 3, 4] } := by
  decide +kernel

theorem waiting_session : waiting.session.closing = false ∧ waiting.session.closeSent = false ∧
    waiting.session.fragmentBuffer = [] ∧ waiting.session.compressionStatus = .disabled := by
  decide +kernel

theorem waiting_representation : waiting.Representation :=
  StreamWebSocket.invokeAll_representation (StreamWebSocket.create_representation 0 15 0 none) _

/-- The call that completes the message multiplies `2 ^ 29` by four in an `int`. -/
theorem waiting_parserCalls {data : Bytes} (hdata : data.length = 2 ^ 31) :
    waiting.parserCalls data = [(waiting.parser, data)] := by
  have hsome : ¬(waiting.prepare.session.closing = true ∨ data = [] ∨ unsignedMax < data.length) := by
    rintro (hclosing | rfl | hlong)
    · exact absurd (waiting_session.1.symm.trans hclosing) (by decide)
    · cases hdata
    · rw [hdata] at hlong
      exact absurd hlong (by decide)
  have hparser : waiting.prepare.parser = waiting.parser := rfl
  have hspill : ¬waiting.prepare.parser.spill ≠ [] := by
    rw [hparser, waiting_state]
    simp
  unfold StreamWebSocket.parserCalls
  rw [if_neg hsome, if_neg hspill, hparser]

theorem waiting_not_exactIn (variant : UnmaskVariant) {data : Bytes} (hdata : data.length = 2 ^ 31) :
    ¬waiting.ExactIn variant data := by
  intro hexact
  have hcompletes := hexact.1 (waiting.parser, data)
    (by rw [waiting_parserCalls hdata]; exact List.mem_singleton.mpr rfl)
  simp only [InPlace.CompletesWithin, waiting_state, hdata] at hcompletes
  exact absurd (hcompletes trivial le_rfl) (by decide)

theorem handleFragment_binary {s : Session Z} (hopen : s.closing = false) (hsent : s.closeSent = false)
    (hbuffer : s.fragmentBuffer = []) (hstatus : s.compressionStatus = .disabled) (data : Bytes) :
    s.handleFragment data 0 .binary true =
      (false, { s with events := s.events ++ [.message data .binary] }) := by
  have hplain : ¬s.compressionStatus = .compressedFrame := by
    rw [hstatus]
    decide
  rw [Session.handleFragment_data data 0 true hopen hsent (by decide), Session.handleData,
    if_pos ⟨rfl, rfl, hbuffer⟩, Session.completeMessage, if_neg hplain]
  rfl

/-- With a product that wraps and the scalar loop, the message is reported as it was sent,
under its key. -/
theorem waiting_masked {data : Bytes} (hdata : data.length = 2 ^ 31) :
    (waiting.consume data).events = [.message data .binary] := by
  obtain ⟨hopen, hsent, hbuffer, hstatus⟩ := waiting_session
  have hidle : ¬(waiting.prepare.session.closing = true ∨ data = []) := by
    rintro (hclosing | rfl)
    · exact absurd (hopen.symm.trans hclosing) (by decide)
    · cases hdata
  have hshort : ¬unsignedMax < data.length := by
    rw [hdata]
    decide
  have hparser : waiting.prepare.parser = waiting.parser := rfl
  have hspill : ¬waiting.prepare.parser.spill ≠ [] := by
    rw [hparser, waiting_state]
    simp
  have hcurrent : waiting.parser.currentOpCode = .binary := by
    rw [waiting_state]
    decide
  have hlast : waiting.parser.lastFin = true := by rw [waiting_state]
  have hremaining : waiting.parser.remainingBytes = data.length := by rw [hdata, waiting_state]
  have hhandled := handleFragment_binary (s := waiting.prepare.session) hopen hsent hbuffer hstatus data
  have hcontinued : ∃ w, consumeContinuation protocolHooks data waiting.parser
      waiting.prepare.session =
        .next [] w { waiting.prepare.session with events := [.message data .binary] } := by
    unfold consumeContinuation
    rw [hremaining, if_pos le_rfl, List.take_length, unmaskFinal_of_wrapped _ hdata, hcurrent, hlast]
    simp only [protocolHooks, hhandled, List.drop_length, Bool.false_eq_true, if_false, if_true]
    exact ⟨_, rfl⟩
  obtain ⟨w, hcontinued⟩ := hcontinued
  unfold StreamWebSocket.consume StreamWebSocket.events
  simp only [if_neg hidle, if_neg hshort, if_neg hspill]
  have hsaved : waiting.parser.spill ++ data = data := by rw [waiting_state, List.nil_append]
  have hwants : ¬waiting.parser.wantsHead = true := by rw [waiting_state]; decide
  rw [StreamWebSocket.feedParser, hparser, consume, hsaved, if_neg hwants, hcontinued]
  simp only [Consumed.resume]
  rw [parseNext_of_incomplete _ (.inl (by decide)), if_pos rfl]

end LongFrame

/-- Every session that calls lead to follows a receiver. Its next call is exact exactly for the
chunks whose lengths fit, each loop is exact exactly for the lengths below its limit, and
the saved mask goes on with the key stream of the frame that was begun. -/
theorem unmasking_exact_iff (variant : UnmaskVariant)
    (negotiatedOptions serverMaxWindowBits maxPayload : ℕ)
    (compressionContext : Option (CompressionContext Z)) (calls : List (SessionCall Z))
    (begun : BegunFrame) {headerBuffer : Bytes} (hsize : headerBuffer.length = headerBufferSize) :
    let fresh := StreamWebSocket.create negotiatedOptions serverMaxWindowBits maxPayload
      compressionContext
    let ws := (fresh.invokeAll calls).2
    (∃ st, ws.Tracks st) ∧
      (∀ r pending, ws.Tracks (r, pending) → ∀ data, ws.ConsumesExactly variant headerBuffer data ↔
        (ws.session.closing = false → data.length ≤ unsignedMax →
          ws.LengthsFit variant data r pending)) ∧
      (∀ (dst src length : ℕ) (key : Mask) (buffer : Bytes), dst ≤ src → src + length ≤ buffer.length →
        length ≤ unsignedMax →
          ((∃ out, InPlace.unmaskImprecise variant dst src length key buffer = .ok out ∧
            (∀ i < length, out[dst + i]? = buffer[src + i]?.map (· ^^^ key.byte i)) ∧
            ∀ i, i < dst ∨ dst + length ≤ i → out[i]? = buffer[i]?) ↔
          length < InPlace.unmaskLimit variant)) ∧
      (ws.session.closing = false → ws.parser.wantsHead = false → ∀ i, ws.parser.mask.byte i =
        (fresh.frameBegunAll begun calls).key.byte ((fresh.frameBegunAll begun calls).read + i)) := by
  intro fresh ws
  have hfresh := StreamWebSocket.create_representation (Z := Z) negotiatedOptions
    serverMaxWindowBits maxPayload compressionContext
  have hfollows := StreamWebSocket.invokeAll_follows (StreamWebSocket.create_tracks (Z := Z)
    negotiatedOptions serverMaxWindowBits maxPayload compressionContext) calls
  have h : ws.Representation := StreamWebSocket.invokeAll_representation hfresh calls
  refine ⟨hfollows, ?_, ?_, ?_⟩
  · intro r pending htracks data
    exact (h.consumesExactly_iff variant data hsize).trans (htracks.exactIn_iff variant data)
  · intro dst src length key buffer hle hinside hlength
    exact unmaskImprecise_exact_iff variant key hle hinside hlength
  · intro hopen hwants
    have hnone : fresh.parser.ReadsFrame begun := fun hreads => by cases hreads
    rcases StreamWebSocket.invokeAll_frameBegun hfresh hnone calls with hclosed | hreads
    · exact absurd (hclosed.symm.trans hopen) (by decide)
    · exact (hreads hwants).2

/-- Three bytes of the long message are read exactly. -/
theorem unmasking_exact_iff_waiting :
    waiting.ConsumesExactly .avx2 (List.replicate 27 0) [0x60, 0x61, 0x62] := by
  have hsize : (List.replicate 27 (0 : UInt8)).length = headerBufferSize := rfl
  obtain ⟨⟨⟨r, pending⟩, htracks⟩, hexact, -⟩ := unmasking_exact_iff (Z := Zlib.sample) .avx2 0 15 0
    none [.consume longHeader] ⟨.none, Vector.replicate 4 0, 0⟩ hsize
  exact (hexact r pending htracks _).mpr fun hopen _ => htracks.lengthsFit .avx2 hopen (by decide)

/-- The rest of a message of `2 ^ 31` bytes, in one chunk behind its header, makes `n * 4`
overflow, in every variant. -/
theorem unmasking_overflows :
    ∃ data : Bytes, data.length ≤ unsignedMax ∧ ∀ variant,
      waiting.consumeInPlace variant (List.replicate 27 0) data = .error .overflow ∧
        ¬waiting.ConsumesExactly variant (List.replicate 27 0) data := by
  have hdata : (List.replicate (2 ^ 31) (0 : UInt8)).length = 2 ^ 31 := List.length_replicate
  refine ⟨List.replicate (2 ^ 31) 0, by rw [hdata]; decide, fun variant => ⟨?_, ?_⟩⟩
  · have hnot := waiting_not_exactIn variant hdata
    rcases @StreamWebSocket.consumeInPlace_run _ _ variant waiting_representation
      (List.replicate (2 ^ 31) 0) (List.replicate 27 0) rfl with ⟨hexact, -⟩ | ⟨-, hrun⟩
    · exact absurd hexact hnot
    · exact hrun
  · rw [waiting_representation.consumesExactly_iff variant _ rfl]
    exact waiting_not_exactIn variant hdata

/-- Every session that calls lead to follows a receiver. A call returns with all borrowed
messages intact exactly for the chunks whose lengths fit; all chunks of less than `2 ^ 31`
bytes are among them. -/
theorem borrowed_views_iff (variant : UnmaskVariant)
    (negotiatedOptions serverMaxWindowBits maxPayload : ℕ)
    (compressionContext : Option (CompressionContext Z)) (calls : List (SessionCall Z)) (data : Bytes)
    {headerBuffer : Bytes} (hsize : headerBuffer.length = headerBufferSize) :
    let ws := ((StreamWebSocket.create negotiatedOptions serverMaxWindowBits maxPayload
      compressionContext).invokeAll calls).2
    (∃ st, ws.Tracks st) ∧
      (∀ r pending, ws.Tracks (r, pending) → (ws.BorrowsIntact variant headerBuffer data ↔
        (ws.session.closing = false → data.length ≤ unsignedMax →
          ws.LengthsFit variant data r pending))) ∧
      (data.length < 2 ^ 31 → ws.BorrowsIntact variant headerBuffer data) := by
  intro ws
  have hfresh := StreamWebSocket.create_representation (Z := Z) negotiatedOptions
    serverMaxWindowBits maxPayload compressionContext
  have hfollows := StreamWebSocket.invokeAll_follows (StreamWebSocket.create_tracks (Z := Z)
    negotiatedOptions serverMaxWindowBits maxPayload compressionContext) calls
  have h : ws.Representation := StreamWebSocket.invokeAll_representation hfresh calls
  have hexact := h.borrowsIntact_iff variant data hsize
  refine ⟨hfollows, fun r pending htracks => hexact.trans (htracks.exactIn_iff variant data), ?_⟩
  exact fun hdata => hexact.mpr (StreamWebSocket.Representation.exactIn h hdata variant)

/-- Two empty messages and one of a letter, in one chunk. -/
theorem borrowed_views_iff_letter :
    (StreamWebSocket.create (Z := Zlib.sample) 0 15 0 none).BorrowsIntact .scalar
      (List.replicate 27 0)
      [0x82, 0x80, 1, 2, 3, 4, 0x82, 0x80, 1, 2, 3, 4, 0x81, 0x81, 1, 2, 3, 4, 0x60] := by
  have hsize : (List.replicate 27 (0 : UInt8)).length = headerBufferSize := rfl
  obtain ⟨⟨⟨r, pending⟩, htracks⟩, hintact, -⟩ := borrowed_views_iff (Z := Zlib.sample) .scalar 0 15 0
    none [] [0x82, 0x80, 1, 2, 3, 4, 0x82, 0x80, 1, 2, 3, 4, 0x81, 0x81, 1, 2, 3, 4, 0x60] hsize
  exact (hintact r pending htracks).mpr fun hopen _ => htracks.lengthsFit .scalar hopen (by decide)

/-- The message of `2 ^ 31` bytes is borrowed. Where the product wraps and the loop is the
scalar one, its view shows the bytes as they were sent, and not the unmasked payload. -/
theorem borrowed_view_masked :
    ∃ data : Bytes, (∀ variant, ¬waiting.BorrowsIntact variant (List.replicate 27 0) data) ∧
      (waiting.consume data).events = [.message data .binary] ∧
        keystream waiting.parser.mask 0 data ≠ data := by
  have hdata : (List.replicate (2 ^ 31) (0 : UInt8)).length = 2 ^ 31 := List.length_replicate
  refine ⟨List.replicate (2 ^ 31) 0, fun variant => ?_, waiting_masked hdata, ?_⟩
  · rw [waiting_representation.borrowsIntact_iff variant _ rfl]
    exact waiting_not_exactIn variant hdata
  · intro hsame
    have hfirst := congrArg (fun bytes => bytes[0]?) hsame
    simp only [keystream_getElem?, waiting_state, List.getElem?_replicate] at hfirst
    exact absurd hfirst (by decide)

end Eiows
