import Eiows.InPlace.Refinement

/-!
# A session on the caller's buffer

`StreamWebSocket::consume` with its memory: the caller's chunk, and the array in
which a saved header is completed. A MESSAGE event whose payload needs no copy
borrows it from the chunk. Whatever the call still unmasks afterwards, the bytes of
the event stay as they were reported.
-/

namespace Eiows

open Memory

variable {Z : Zlib}

/-- The objects that a call of `consume` writes to: `headerBuffer` and the chunk. -/
inductive Block where
  | header
  | chunk
  deriving DecidableEq

/-- The `view` of a MESSAGE event that is not `nullptr`. -/
structure View where
  /-- The position of the event in `events`. -/
  event : ℕ
  block : Block
  data : ℕ
  length : ℕ
  deriving DecidableEq

/-- The bytes that a view shows. -/
def View.bytes (memory : Block → Bytes) (v : View) : Bytes := slice (memory v.block) v.data v.length

/-- A session with the views of its events. -/
structure BorrowingSession (Z : Zlib) where
  session : Session Z
  views : List View := []

/-- The branch of `handleFragment` that reports a message without copying it. -/
def Session.borrows (data : Bytes) (remainingBytes : ℕ) (opCode : OpCode) (fin : Bool)
    (s : Session Z) : Prop :=
  s.closing = false ∧ s.closeSent = false ∧ opCode.value < 3 ∧ remainingBytes = 0 ∧ fin = true ∧
    s.fragmentBuffer = [] ∧ s.compressionStatus ≠ .compressedFrame ∧
    (opCode = .text → isValidUtf8 data = true)

instance (data : Bytes) (remainingBytes : ℕ) (opCode : OpCode) (fin : Bool) (s : Session Z) :
    Decidable (s.borrows data remainingBytes opCode fin) := by
  unfold Session.borrows
  infer_instance

/-- `protocolHooks`, for a payload at `data` in a block. -/
def borrowingHooks (block : Block) (data : ℕ) : WebSocketProtocolHooks (BorrowingSession Z) where
  refusePayloadLength length b :=
    ((b.session.refusePayloadLength length).1,
      { b with session := (b.session.refusePayloadLength length).2 })
  setCompressed b := (b.session.setCompressed.1, { b with session := b.session.setCompressed.2 })
  forceClose b := { b with session := b.session.forceClose }
  handleFragment payload remainingBytes opCode fin b :=
    let handled := b.session.handleFragment payload remainingBytes opCode fin
    (handled.1, {
      session := handled.2
      views :=
        if b.session.borrows payload remainingBytes opCode fin then
          b.views ++ [⟨b.session.events.length, block, data, payload.length⟩]
        else b.views })

/-- A borrowed message is reported with its payload. -/
theorem Session.borrows_events {s : Session Z} {data : Bytes} {remainingBytes : ℕ} {opCode : OpCode}
    {fin : Bool} (h : s.borrows data remainingBytes opCode fin) :
    (s.handleFragment data remainingBytes opCode fin).2.events =
      s.events ++ [.message data opCode] := by
  obtain ⟨hopen, hsent, hdata, rfl, rfl, hbuffer, hcompression, htext⟩ := h
  have hvalid : ¬(opCode = .text ∧ (!isValidUtf8 data) = true) := by
    rintro ⟨hopCode, hinvalid⟩
    rw [htext hopCode] at hinvalid
    cases hinvalid
  rw [handleFragment_data data 0 true hopen hsent hdata, handleData, if_pos ⟨rfl, rfl, hbuffer⟩,
    completeMessage, if_neg hcompression, emitMessage, if_neg hvalid]

/-- The views lie inside their blocks, show the payloads of their events, and do not
overlap. -/
structure Intact (memory : Block → Bytes) (b : BorrowingSession Z) : Prop where
  inside : ∀ v ∈ b.views, v.data + v.length ≤ (memory v.block).length
  payload : ∀ v ∈ b.views, ∃ opCode, b.session.events[v.event]? =
    some (.message (v.bytes memory) opCode)
  disjoint : b.views.Pairwise fun u v =>
    u.event < v.event ∧ (u.block = v.block → u.data + u.length ≤ v.data)

/-- The bytes of one block, with those of the others. -/
def withBlock (memory : Block → Bytes) (block : Block) (bytes : Bytes) : Block → Bytes :=
  Function.update memory block bytes

section Intact

variable {memory : Block → Bytes} {block : Block} {before : Bytes} {b : BorrowingSession Z}

/-- A block grows at its end. -/
theorem Intact.extend (h : Intact (withBlock memory block before) b) (more : Bytes) :
    Intact (withBlock memory block (before ++ more)) b := by
  have hkept : ∀ v ∈ b.views,
      v.data + v.length ≤ (withBlock memory block (before ++ more) v.block).length ∧
        v.bytes (withBlock memory block (before ++ more)) = v.bytes (withBlock memory block before) := by
    intro v hv
    have hinside := h.inside v hv
    by_cases hblock : v.block = block
    · simp only [View.bytes, withBlock, hblock, Function.update_self] at hinside ⊢
      refine ⟨?_, slice_append_left more hinside⟩
      rw [List.length_append]
      omega
    · simp only [View.bytes, withBlock, Function.update_of_ne hblock] at hinside ⊢
      exact ⟨hinside, trivial⟩
  refine ⟨fun v hv => (hkept v hv).1, ?_, h.disjoint⟩
  intro v hv
  rw [(hkept v hv).2]
  exact h.payload v hv

/-- Later events do not touch earlier ones. -/
theorem Intact.emit {s' : Session Z} (h : Intact memory b) (hevents : b.session.events <+: s'.events) :
    Intact memory { b with session := s' } := by
  refine ⟨h.inside, ?_, h.disjoint⟩
  intro v hv
  obtain ⟨opCode, hpayload⟩ := h.payload v hv
  obtain ⟨more, hmore⟩ := hevents
  refine ⟨opCode, ?_⟩
  obtain ⟨hlt, -⟩ := List.getElem?_eq_some_iff.mp hpayload
  simp only
  rw [← hmore, List.getElem?_append_left hlt]
  exact hpayload

/-- A new view is behind those of its block. -/
theorem Intact.borrow {s' : Session Z} {payload : Bytes} {opCode : OpCode}
    (h : Intact (withBlock memory block before) b)
    (hevents : s'.events = b.session.events ++ [.message payload opCode]) :
    Intact (withBlock memory block (before ++ payload))
      { session := s'
        views := b.views ++ [⟨b.session.events.length, block, before.length, payload.length⟩] } := by
  have hold := @Intact.emit _ _ _ s' (h.extend payload) ⟨_, hevents.symm⟩
  constructor
  · intro v hv
    rcases List.mem_append.mp hv with hbefore | hnew
    · exact hold.inside v hbefore
    · rw [List.mem_singleton.mp hnew]
      simp [withBlock]
  · intro v hv
    rcases List.mem_append.mp hv with hbefore | hnew
    · exact hold.payload v hbefore
    · refine ⟨opCode, ?_⟩
      rw [List.mem_singleton.mp hnew]
      simp [View.bytes, withBlock, hevents, slice_append_right]
  · apply List.pairwise_append.mpr
    refine ⟨h.disjoint, List.pairwise_singleton _ _, ?_⟩
    intro u hu v hv
    rw [List.mem_singleton.mp hv]
    obtain ⟨opCode', hpayload⟩ := h.payload u hu
    obtain ⟨hlt, -⟩ := List.getElem?_eq_some_iff.mp hpayload
    refine ⟨hlt, fun hblock => ?_⟩
    have hinside := h.inside u hu
    simp only at hblock
    simpa [withBlock, hblock] using hinside

end Intact

/-- The session on the buffer is that of the parser on lists. Its views lie in the
bytes of the block that the parser has left behind; those in other blocks are empty. -/
structure Borrowing (memory : Block → Bytes) (block : Block) (before : Bytes)
    (b : BorrowingSession Z) (s : Session Z × List ℕ) : Prop where
  session : b.session = s.1
  intact : Intact (withBlock memory block before) b
  lengths : ∀ v ∈ b.views, v.length ∈ s.2
  others : ∀ v ∈ b.views, v.block ≠ block → v.length = 0

theorem Borrowing.emit {memory : Block → Bytes} {block : Block} {before : Bytes}
    {b : BorrowingSession Z} {s : Session Z × List ℕ} {s' : Session Z}
    (h : Borrowing memory block before b s) (hemits : s.1.Emits s') :
    Borrowing memory block before { b with session := s' } (s', s.2) := by
  obtain ⟨es, hes, -⟩ := hemits
  refine ⟨rfl, h.intact.emit ⟨es, ?_⟩, h.lengths, h.others⟩
  rw [h.session, hes]

/-- The hooks on the buffer do what the hooks on lists do. -/
theorem borrowingHooks_simulates (memory : Block → Bytes) (block : Block) :
    InPlace.Simulates (borrowingHooks (Z := Z) block) protocolHooks (Borrowing memory block) := by
  constructor
  · intro before b s more h
    exact ⟨h.session, h.intact.extend more, h.lengths, h.others⟩
  · intro before b s data length h
    have hemits := h.emit (protocolHooks_emits.refusePayloadLength length s.1)
    simp only [borrowingHooks, recordParts, protocolHooks, h.session] at hemits ⊢
    exact ⟨trivial, hemits⟩
  · intro before b s data h
    have hemits := h.emit (protocolHooks_emits.setCompressed s.1)
    simp only [borrowingHooks, recordParts, protocolHooks, h.session] at hemits ⊢
    exact ⟨trivial, hemits⟩
  · intro before b s data h
    have hemits := h.emit (protocolHooks_emits.forceClose s.1)
    simp only [borrowingHooks, recordParts, protocolHooks, h.session] at hemits ⊢
    exact hemits
  · intro before b s payload remainingBytes opCode fin h
    have hemits := h.emit (protocolHooks_emits.handleFragment payload remainingBytes opCode fin s.1)
    have hextended := hemits.intact.extend payload
    simp only [borrowingHooks, recordParts, protocolHooks, h.session] at hemits hextended ⊢
    refine ⟨trivial, ?_⟩
    split_ifs with hborrows
    · have hevents := Session.borrows_events hborrows
      rw [← h.session] at hevents ⊢
      refine ⟨rfl, h.intact.borrow hevents, ?_, ?_⟩
      · intro v hv
        rcases List.mem_append.mp hv with hold | hnew
        · exact List.mem_append_left _ (h.lengths v hold)
        · rw [List.mem_singleton.mp hnew]
          exact List.mem_append_right _ (List.mem_singleton.mpr rfl)
      · intro v hv hblock
        rcases List.mem_append.mp hv with hold | hnew
        · exact h.others v hold hblock
        · rw [List.mem_singleton.mp hnew] at hblock
          exact absurd rfl hblock
    · exact ⟨rfl, hextended, fun v hv => List.mem_append_left _ (h.lengths v hv), h.others⟩

theorem protocolHooks_limitsLength : InPlace.LimitsLength (protocolHooks (Z := Z)) := by
  intro length s h
  simp only [protocolHooks, Session.refusePayloadLength] at h
  split_ifs at h with hlong
  omega

/-- The result of reading a frame, for a part of the session. -/
def Consumed.map {σ σ' : Type} (f : σ → σ') : Consumed σ → Consumed σ'
  | .stop w s => .stop w (f s)
  | .next rest w s => .next rest w (f s)

section Record

variable {σ : Type} (hooks : WebSocketProtocolHooks σ)

/-- The parser on lists does not look at the record. -/
theorem consumeMessage_recordParts (payLength messageHeader : ℕ) (src : Bytes) (w : WebSocketState)
    (s : σ × List ℕ) :
    (consumeMessage (recordParts hooks) payLength messageHeader src w s).map Prod.fst =
      consumeMessage hooks payLength messageHeader src w s.1 := by
  have hrefusal : ∀ opCode, (refuseFrame (recordParts hooks) opCode payLength s).1 =
        (refuseFrame hooks opCode payLength s.1).1 ∧
      (refuseFrame (recordParts hooks) opCode payLength s).2.1 =
        (refuseFrame hooks opCode payLength s.1).2 := by
    intro opCode
    unfold refuseFrame
    split_ifs <;> exact ⟨rfl, rfl⟩
  unfold consumeMessage
  simp only
  cases enterFrame (OpCode.ofNibble (getOpCode src)) (isFin src) w with
  | error w' => rfl
  | ok w' =>
    obtain ⟨hsame, hsession⟩ := hrefusal (OpCode.ofNibble (getOpCode src))
    rw [← hsame, ← hsession]
    generalize refuseFrame (recordParts hooks) (OpCode.ofNibble (getOpCode src)) payLength s = refusal
    simp only [consumeWhole, consumePart, apply_ite (Consumed.map Prod.fst)]
    rfl

theorem consumeContinuation_recordParts (src : Bytes) (w : WebSocketState) (s : σ × List ℕ) :
    (consumeContinuation (recordParts hooks) src w s).map Prod.fst =
      consumeContinuation hooks src w s.1 := by
  simp only [consumeContinuation, apply_ite (Consumed.map Prod.fst)]
  rfl

theorem parseNext_recordParts (n : ℕ) :
    ∀ (src : Bytes) (w : WebSocketState) (s : σ × List ℕ), src.length = n →
      parseNext hooks src w s.1 = ((parseNext (recordParts hooks) src w s).1,
        (parseNext (recordParts hooks) src w s).2.1) := by
  induction n using Nat.strong_induction_on with
  | _ n ih =>
    intro src w s hn
    by_cases hshort : src.length < shortMessageHeader ∨
        src.length < headerLengthOf (payloadLength src)
    · rw [parseNext_of_incomplete _ hshort, parseNext_of_incomplete _ hshort]
      split_ifs <;> rfl
    · have hchecked : (checkCompressed (recordParts hooks) src s).1 = (checkCompressed hooks src s.1).1 ∧
          (checkCompressed (recordParts hooks) src s).2.1 = (checkCompressed hooks src s.1).2 := by
        unfold checkCompressed
        split_ifs <;> exact ⟨rfl, rfl⟩
      rw [parseNext_of_complete _ hshort, parseNext_of_complete _ hshort, hchecked.1, ← hchecked.2,
        ← consumeMessage_recordParts]
      split_ifs with hbad
      · rfl
      · cases hresult : consumeMessage (recordParts hooks) (announcedLength src)
            (headerLengthOf (payloadLength src)) src w (checkCompressed (recordParts hooks) src s).2 with
        | stop w' s' => rfl
        | next rest w' s' =>
          have hrest := consumeMessage_next _ hresult
          have hheader := headerLengthOf_cases (payloadLength src)
          apply ih rest.length _ rest w' s' rfl
          rw [hrest, List.length_drop]
          omega

theorem consume_recordParts (src : Bytes) (w : WebSocketState) (s : σ × List ℕ) :
    consume hooks src w s.1 =
      ((consume (recordParts hooks) src w s).1, (consume (recordParts hooks) src w s).2.1) := by
  unfold consume
  split_ifs
  · exact parseNext_recordParts hooks _ _ w s rfl
  · rw [← consumeContinuation_recordParts]
    cases consumeContinuation (recordParts hooks) (w.spill ++ src) w s with
    | stop w' s' => rfl
    | next rest w' s' => exact parseNext_recordParts hooks _ rest w' s' rfl

end Record

section Lengths

variable {σ : Type} {hooks : WebSocketProtocolHooks σ} {src : Bytes} {w w' : WebSocketState} {s s' : σ}
  {parts : List ℕ}

theorem checkCompressed_record (hooks : WebSocketProtocolHooks σ) (src : Bytes) (s : σ)
    (parts : List ℕ) : checkCompressed (recordParts hooks) src (s, parts) =
      ((checkCompressed hooks src s).1, (checkCompressed hooks src s).2, parts) := by
  unfold checkCompressed
  split_ifs <;> rfl

/-- A frame that is entered has the length of one part of its payload recorded. -/
theorem consumeMessage_record {payLength messageHeader : ℕ}
    (hentered : enterFrame (OpCode.ofNibble (getOpCode src)) (isFin src) w = .ok w')
    (hadmitted : (refuseFrame hooks (OpCode.ofNibble (getOpCode src)) payLength s).1 = false) :
    (consumeMessage (recordParts hooks) payLength messageHeader src w (s, parts)).session.2 =
      parts ++ [min payLength (src.length - messageHeader)] := by
  have hrefusal : refuseFrame (recordParts hooks) (OpCode.ofNibble (getOpCode src)) payLength
      (s, parts) = (false,
        (refuseFrame hooks (OpCode.ofNibble (getOpCode src)) payLength s).2, parts) := by
    unfold refuseFrame at hadmitted ⊢
    split_ifs at hadmitted ⊢
    · simp only [recordParts, hadmitted]
    · rfl
  unfold consumeMessage
  simp only [hentered, hrefusal, Bool.false_eq_true, if_false]
  split_ifs with hwhole
  · have hlength : (unmaskImprecise (readMask src (messageHeader - 4))
        ((src.drop messageHeader).take payLength)).length =
          min payLength (src.length - messageHeader) := by
      rw [unmaskImprecise_eq_keystream, keystream_length, List.length_take, List.length_drop]
    simp only [consumeWhole, recordParts, hlength]
    split_ifs <;> rfl
  · have hlength : (unmaskImprecise (readMask src (messageHeader - 4))
        (src.drop messageHeader)).length = min payLength (src.length - messageHeader) := by
      rw [unmaskImprecise_eq_keystream, keystream_length, List.length_drop]
      omega
    simp only [consumePart, recordParts, hlength, Consumed.session]

/-- Any other frame leaves the record as it is. -/
theorem consumeMessage_record_refused (parts : List ℕ) {payLength : ℕ} (messageHeader : ℕ)
    (hrefused : ∀ w', enterFrame (OpCode.ofNibble (getOpCode src)) (isFin src) w = .ok w' →
      (refuseFrame hooks (OpCode.ofNibble (getOpCode src)) payLength s).1 = true) :
    ∃ w' s', consumeMessage (recordParts hooks) payLength messageHeader src w (s, parts) =
      .stop w' (s', parts) := by
  unfold consumeMessage
  simp only
  cases hentered : enterFrame (OpCode.ofNibble (getOpCode src)) (isFin src) w with
  | error w' => exact ⟨w', _, rfl⟩
  | ok w' =>
    have hrefusal : refuseFrame (recordParts hooks) (OpCode.ofNibble (getOpCode src)) payLength
        (s, parts) = (true,
          (refuseFrame hooks (OpCode.ofNibble (getOpCode src)) payLength s).2, parts) := by
      have hrefused := hrefused w' hentered
      unfold refuseFrame at hrefused ⊢
      split_ifs at hrefused ⊢
      simp only [recordParts, hrefused]
    simp only [hrefusal, if_true]
    exact ⟨w', _, rfl⟩

/-- A frame stops with the record as it was, or has one length recorded. -/
theorem consumeMessage_record_cases (hooks : WebSocketProtocolHooks σ)
    (payLength messageHeader : ℕ) (src : Bytes) (w : WebSocketState) (s : σ) (parts : List ℕ) :
    (∃ w' s', consumeMessage (recordParts hooks) payLength messageHeader src w (s, parts) =
        .stop w' (s', parts)) ∨
      (consumeMessage (recordParts hooks) payLength messageHeader src w (s, parts)).session.2 =
        parts ++ [min payLength (src.length - messageHeader)] := by
  by_cases hentered : ∃ w', enterFrame (OpCode.ofNibble (getOpCode src)) (isFin src) w = .ok w' ∧
      (refuseFrame hooks (OpCode.ofNibble (getOpCode src)) payLength s).1 = false
  · obtain ⟨w', hentered, hadmitted⟩ := hentered
    exact .inr (consumeMessage_record hentered hadmitted)
  · refine .inl (consumeMessage_record_refused parts messageHeader fun w' hok => ?_)
    by_contra hadmitted
    exact hentered ⟨w', hok, by simpa using hadmitted⟩

/-- The rest of a frame that was begun has its length recorded. -/
theorem consumeContinuation_record (hooks : WebSocketProtocolHooks σ) (src : Bytes)
    (w : WebSocketState) (s : σ) (parts : List ℕ) :
    (consumeContinuation (recordParts hooks) src w (s, parts)).session.2 =
      parts ++ [min w.remainingBytes src.length] := by
  unfold consumeContinuation
  by_cases hlast : w.remainingBytes ≤ src.length
  · rw [if_pos hlast]
    have hlength : (unmaskFinal (src.take w.remainingBytes) w.mask).length =
        min w.remainingBytes src.length := by
      rw [unmaskFinal_length, List.length_take]
    simp only [recordParts, hlength]
    split_ifs <;> rfl
  · rw [if_neg hlast]
    have hlength : (unmaskInplace src src.length w.mask).length =
        min w.remainingBytes src.length := by
      rw [unmaskInplace_length, keystream_length]
      omega
    simp only [recordParts, hlength]
    split_ifs <;> rfl

theorem Consumed.of_map_stop {c : Consumed (σ × List ℕ)} (h : c.map Prod.fst = .stop w s) :
    c = .stop w (s, c.session.2) := by
  cases c with
  | stop w' t => cases h; rfl
  | next rest w' t => cases h

theorem Consumed.of_map_next {c : Consumed (σ × List ℕ)} (h : c.map Prod.fst = .next src w s) :
    c = .next src w (s, c.session.2) := by
  cases c with
  | stop w' t => cases h
  | next rest w' t => cases h; rfl

end Lengths

/-- `CONSUME_PRE_PADDING`. -/
def consumePrePadding : ℕ := longMessageHeader - 1

/-- The size of `headerBuffer`. -/
def headerBufferSize : ℕ := consumePrePadding + longMessageHeader

/-- What a call of `consume` leaves in memory. -/
structure ConsumedInPlace (Z : Zlib) where
  chunk : Bytes
  headerBuffer : Bytes
  parser : WebSocketState
  session : BorrowingSession Z

/-- The two objects by their names. -/
def ConsumedInPlace.memory (r : ConsumedInPlace Z) : Block → Bytes
  | .header => r.headerBuffer
  | .chunk => r.chunk

namespace StreamWebSocket

/-- The call of `WebSocketProtocol::consume` on `headerBuffer`: the bytes that the saved
header lacks are copied behind the padding. -/
def consumeHeader (variant : UnmaskVariant) (headerBuffer header : Bytes) (ws : StreamWebSocket Z) :
    Checked (Bytes × WebSocketState × BorrowingSession Z) := do
  let buffer ← store headerBuffer consumePrePadding header
  InPlace.consume variant (borrowingHooks .header) ⟨buffer, consumePrePadding, header.length⟩
    ws.parser { session := ws.session }

/-- `StreamWebSocket::consume`, on the caller's chunk and `headerBuffer`. -/
def consumeInPlace (variant : UnmaskVariant) (headerBuffer data : Bytes) (ws : StreamWebSocket Z) :
    Checked (ConsumedInPlace Z) := do
  let ws := ws.prepare
  if ws.session.closing ∨ data = [] then return ⟨data, headerBuffer, ws.parser, { session := ws.session }⟩
  else if unsignedMax < data.length then
    return ⟨data, headerBuffer, ws.parser, { session := ws.session.failWith 1009 }⟩
  else if ws.parser.spill ≠ [] then
    let missing ← unsignedSub (spilledHeaderLength ws.parser.spill data) ws.parser.spill.length
    let copied := min data.length missing
    let (headerBuffer, parser, session) ← ws.consumeHeader variant headerBuffer (data.take copied)
    if !session.session.closing ∧ copied < data.length then
      let (chunk, parser, session) ← InPlace.consume variant (borrowingHooks .chunk)
        ⟨data, copied, data.length - copied⟩ parser session
      return ⟨chunk, headerBuffer, parser, session⟩
    else return ⟨data, headerBuffer, parser, session⟩
  else
    let (chunk, parser, session) ← InPlace.consume variant (borrowingHooks .chunk)
      ⟨data, 0, data.length⟩ ws.parser { session := ws.session }
    return ⟨chunk, headerBuffer, parser, session⟩

/-- `consume`, with a record of the lengths of the payloads it unmasks. -/
def consumeRecorded (data : Bytes) (ws : StreamWebSocket Z) : WebSocketState × (Session Z × List ℕ) :=
  let ws := ws.prepare
  if ws.session.closing ∨ data = [] then (ws.parser, ws.session, [])
  else if unsignedMax < data.length then (ws.parser, ws.session.failWith 1009, [])
  else if ws.parser.spill ≠ [] then
    let copied := min data.length
      (spilledHeaderLength ws.parser.spill data - ws.parser.spill.length)
    let first := Eiows.consume (recordParts protocolHooks) (data.take copied) ws.parser (ws.session, [])
    if !first.2.1.closing ∧ copied < data.length then
      Eiows.consume (recordParts protocolHooks) (data.drop copied) first.1 first.2
    else first
  else Eiows.consume (recordParts protocolHooks) data ws.parser (ws.session, [])

/-- The lengths of the payloads, and parts of payloads, that a chunk holds. -/
def payloadParts (data : Bytes) (ws : StreamWebSocket Z) : List ℕ := (ws.consumeRecorded data).2.2

/-- The calls of `WebSocketProtocol::consume` that a chunk leads to, with the parser
state that each starts from. -/
def parserCalls (data : Bytes) (ws : StreamWebSocket Z) : List (WebSocketState × Bytes) :=
  let ws := ws.prepare
  if ws.session.closing ∨ data = [] ∨ unsignedMax < data.length then []
  else if ws.parser.spill ≠ [] then
    let copied := min data.length
      (spilledHeaderLength ws.parser.spill data - ws.parser.spill.length)
    let first := ws.feedParser (data.take copied)
    if !first.session.closing ∧ copied < data.length then
      [(ws.parser, data.take copied), (first.parser, data.drop copied)]
    else [(ws.parser, data.take copied)]
  else [(ws.parser, data)]

theorem feedParser_recordParts (data : Bytes) (ws : StreamWebSocket Z) (parts : List ℕ) :
    ws.feedParser data =
      ⟨(Eiows.consume (recordParts protocolHooks) data ws.parser (ws.session, parts)).1,
        (Eiows.consume (recordParts protocolHooks) data ws.parser (ws.session, parts)).2.1⟩ := by
  have hsame := consume_recordParts protocolHooks data ws.parser (ws.session, parts)
  simp only at hsame
  rw [feedParser, hsame]

theorem consumeRecorded_eq (data : Bytes) (ws : StreamWebSocket Z) :
    ws.consume data = ⟨(ws.consumeRecorded data).1, (ws.consumeRecorded data).2.1⟩ := by
  unfold consume consumeRecorded
  simp only
  by_cases hidle : ws.prepare.session.closing = true ∨ data = []
  · simp only [if_pos hidle]
  · simp only [if_neg hidle]
    by_cases hlong : unsignedMax < data.length
    · simp only [if_pos hlong]
    · simp only [if_neg hlong]
      by_cases hspill : ws.prepare.parser.spill ≠ []
      · simp only [if_pos hspill]
        rw [feedParser_recordParts _ ws.prepare []]
        split_ifs
        · exact feedParser_recordParts _ _ _
        · rfl
      · simp only [if_neg hspill]
        exact feedParser_recordParts _ _ _

end StreamWebSocket

end Eiows
