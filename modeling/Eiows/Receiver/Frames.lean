import Eiows.Streaming.Decoder
import Eiows.Session.StreamWebSocket

/-!
# Receiving whole frames

The purpose of the receive path, stated on whole frames. A receiver judges a
frame once its header is complete, and takes its payload once that is complete.
It knows nothing of chunks, saved header bytes or rotated masks.
-/

namespace Eiows

/-- The longest data message that a session accepts. -/
def payloadLimit (maxPayload : ℕ) : ℕ :=
  if maxPayload = 0 then unsignedMax else min maxPayload unsignedMax

/-- What a session remembers at a frame boundary. -/
structure Receiver (Z : Zlib) where
  /-- The configured `maxPayload`. -/
  maxPayload : ℕ
  /-- The negotiated options. -/
  options : ℕ
  /-- The opcode of the fragmented message in progress. -/
  message : Option OpCode
  /-- The payload of its fragments so far. -/
  data : Bytes
  /-- Whether compression is negotiated, and whether the message in progress is compressed. -/
  compression : CompressionStatus
  /-- The inflate stream for incoming messages, when the session has a context. -/
  inflater : Option (Option Z.Inflate)
  /-- A Close frame has been produced. -/
  closeSent : Bool
  /-- The session takes no more frames. -/
  closing : Bool

/-- A header is malformed whatever came before it: unmasked, RSV2 or RSV3, a
reserved opcode, a control frame that is fragmented or too long, or a length
that is not encoded in the shortest form. -/
def FrameHeader.malformed (h : FrameHeader) : Bool :=
  !h.masked || h.rsv23 || (2 < h.nibble && h.nibble < 8) || 10 < h.nibble ||
    (2 < h.nibble && (!h.fin || 125 < h.marker)) || (h.marker == 126 && h.length < 126) ||
    (h.marker == 127 && (2 ^ 63 ≤ h.length || h.length ≤ 65535))

/-- Whether the frame belongs to a data message. -/
def FrameHeader.isData (h : FrameHeader) : Bool := h.nibble ≤ 2

/-- The first frame of a data message has a message opcode. -/
theorem FrameHeader.opCode_of_isData {h : FrameHeader} (hdata : h.isData = true)
    (hnonzero : h.nibble ≠ 0) : h.opCode = .text ∨ h.opCode = .binary := by
  have hnibble : h.nibble ≤ 2 := by simpa [FrameHeader.isData] using hdata
  have : h.nibble = 1 ∨ h.nibble = 2 := by omega
  rcases this with hone | htwo
  · simp [FrameHeader.opCode, hone, OpCode.ofNibble]
  · simp [FrameHeader.opCode, htwo, OpCode.ofNibble]

namespace Receiver

variable {Z : Zlib}

/-- The frame does not fit the fragmentation state: a new data message inside a
message, or a continuation outside of one. -/
def outOfSequence (r : Receiver Z) (h : FrameHeader) : Bool :=
  (h.isData && h.nibble != 0 && r.message.isSome) || (h.nibble == 0 && r.message.isNone)

/-- RSV1 where it may not be: on a continuation or a control frame, without
negotiated compression, or inside a compressed message. -/
def badCompression (r : Receiver Z) (h : FrameHeader) : Bool :=
  h.rsv1 && (h.nibble == 0 || !h.isData || r.compression != .enabled)

/-- The announced payload makes the message too long. After a Close frame
messages are not collected, and only the frame counts. -/
def tooLong (r : Receiver Z) (h : FrameHeader) : Bool :=
  h.isData &&
    payloadLimit r.maxPayload < (if r.closeSent then 0 else r.data.length) + h.length

/-- The failure code of a header, or `none` for a frame that may follow. -/
def judgeHeader (r : Receiver Z) (h : FrameHeader) : Option ℕ :=
  if h.malformed || r.badCompression h || r.outOfSequence h then some 1002
  else if r.tooLong h then some 1009
  else none

/-- Give up the connection: a Close frame with the failure code, unless one has
been sent, and the report of an abnormal closure. -/
def refuse (r : Receiver Z) (code : ℕ) : Receiver Z × List Event :=
  ({ r with closeSent := true, closing := true },
    (if r.closeSent then [] else [.frame (formatClose code [])]) ++ [.close 1006 []])

/-- The compression status while a frame is read. -/
def compressionIn (r : Receiver Z) (h : FrameHeader) : CompressionStatus :=
  if h.rsv1 then .compressedFrame else r.compression

/-- The opcode of the message that a data frame belongs to. -/
def messageOpCode (r : Receiver Z) (h : FrameHeader) : OpCode :=
  if h.nibble = 0 then r.message.getD .none else h.opCode

/-- The opcode under which the payload of a frame is handed over. -/
def frameOpCode (r : Receiver Z) (h : FrameHeader) : OpCode :=
  if h.isData then r.messageOpCode h else h.opCode

/-- Take the Close frame of the peer. -/
def deliverClose (r : Receiver Z) (payload : Bytes) : Receiver Z × List Event :=
  let closeFrame := parseClosePayload payload
  if closeFrame.code = 1006 then r.refuse 1002
  else
    ({ r with closeSent := true, closing := true },
      (if r.closeSent then [] else [.frame (formatClose closeFrame.code closeFrame.message)]) ++
        [.close closeFrame.code closeFrame.message])

/-- Take a control frame. -/
def deliverControl (r : Receiver Z) (opCode : OpCode) (payload : Bytes) :
    Receiver Z × List Event :=
  if opCode = .close then r.deliverClose payload
  else if opCode = .ping then (r, [.frame (formatFrame payload .pong false)])
  else (r, [])

/-- Report a message, once it is known to be text where it has to be. -/
def report (r : Receiver Z) (data : Bytes) (opCode : OpCode) : Receiver Z × List Event :=
  if opCode = .text ∧ !isValidUtf8 data then r.refuse 1007
  else (r, [.message data opCode])

/-- The inflated form of a compressed message, and the stream afterwards. -/
def inflate (r : Receiver Z) (data : Bytes) : InflateResult × Bytes × Option (Option Z.Inflate) :=
  match r.inflater with
  | none => (.internalError, [], none)
  | some stream =>
    let result := Z.inflateMessage stream data r.maxPayload
      (hasOption r.options CLIENT_NO_CONTEXT_TAKEOVER)
    (result.1, result.2.1, some result.2.2)

/-- Take the complete payload of a message. -/
def complete (r : Receiver Z) (data : Bytes) (opCode : OpCode) : Receiver Z × List Event :=
  if r.compression = .compressedFrame then
    let inflated := r.inflate data
    let r := { r with compression := .enabled, inflater := inflated.2.2 }
    if inflated.1 ≠ .success then r.refuse (closeCodeForInflateResult inflated.1)
    else r.report inflated.2.1 opCode
  else r.report data opCode

/-- Take a data frame. After a Close frame its payload is ignored. -/
def deliverData (r : Receiver Z) (h : FrameHeader) (payload : Bytes) : Receiver Z × List Event :=
  let opCode := r.messageOpCode h
  let r := { r with
    compression := r.compressionIn h
    message := if h.fin then none else some opCode }
  if r.closeSent then (r, [])
  else if h.fin then { r with data := [] }.complete (r.data ++ payload) opCode
  else ({ r with data := r.data ++ payload }, [])

/-- Take a whole frame. -/
def deliver (r : Receiver Z) (h : FrameHeader) (payload : Bytes) : Receiver Z × List Event :=
  if h.isData then r.deliverData h payload else r.deliverControl h.opCode payload

/-- Read one frame, or refuse it, at the front of a buffer. -/
def next (r : Receiver Z) (src : Bytes) : Option (Receiver Z × List Event × ℕ) :=
  if r.closing then none
  else
    match parseHeader src with
    | none => none
    | some h =>
      match r.judgeHeader h with
      | some code => some ((r.refuse code).1, (r.refuse code).2, h.size)
      | none =>
        if src.length < h.size + h.length then none
        else
          let delivered := r.deliver h (keystream h.key 0 ((src.drop h.size).take h.length))
          some (delivered.1, delivered.2, h.size + h.length)

/-- A message that is not required to be text, or is, is reported. -/
theorem report_of_valid {r : Receiver Z} {data : Bytes} {opCode : OpCode}
    (htext : opCode = .text → WellFormedUtf8 data) :
    r.report data opCode = (r, [.message data opCode]) := by
  rw [report, if_neg]
  rintro ⟨hopCode, hinvalid⟩
  simp [(isValidUtf8_iff data).mpr (htext hopCode)] at hinvalid

/-- A text message that is no text is refused. -/
theorem report_of_invalid {r : Receiver Z} {data : Bytes} (hinvalid : ¬WellFormedUtf8 data) :
    r.report data .text = r.refuse 1007 := by
  rw [report, if_pos]
  simpa [← isValidUtf8_iff] using hinvalid

/-- The last frame of a message completes it. -/
theorem deliver_last {r : Receiver Z} {h : FrameHeader} (payload : Bytes)
    (hdata : h.isData = true) (hsent : r.closeSent = false) (hfin : h.fin = true) :
    r.deliver h payload =
      ({ r with compression := r.compressionIn h, message := none, data := [] } :
        Receiver Z).complete (r.data ++ payload) (r.messageOpCode h) := by
  simp only [deliver, hdata, deliverData, hsent, hfin, if_true, Bool.false_eq_true, if_false]

/-- Any other data frame is added to its message. -/
theorem deliver_more {r : Receiver Z} {h : FrameHeader} (payload : Bytes)
    (hdata : h.isData = true) (hsent : r.closeSent = false) (hfin : h.fin = false) :
    r.deliver h payload =
      ({ r with
        compression := r.compressionIn h
        message := some (r.messageOpCode h)
        data := r.data ++ payload }, []) := by
  simp only [deliver, hdata, deliverData, hsent, hfin, if_true, Bool.false_eq_true, if_false]

/-- After a Close frame only the shape of data frames is followed. -/
theorem deliver_ignored {r : Receiver Z} {h : FrameHeader} (payload : Bytes)
    (hdata : h.isData = true) (hsent : r.closeSent = true) :
    r.deliver h payload =
      ({ r with
        compression := r.compressionIn h
        message := if h.fin then none else some (r.messageOpCode h) }, []) := by
  simp only [deliver, hdata, deliverData, hsent, if_true]

/-- A frame may follow when none of the four judgements is against it. -/
theorem judgeHeader_eq_none {r : Receiver Z} {h : FrameHeader} :
    r.judgeHeader h = none ↔ h.malformed = false ∧ r.badCompression h = false ∧
      r.outOfSequence h = false ∧ r.tooLong h = false := by
  unfold judgeHeader
  cases h.malformed <;> cases r.badCompression h <;> cases r.outOfSequence h <;>
    cases r.tooLong h <;> simp

/-- Only a text or binary message can be in progress. -/
def WellFormed (r : Receiver Z) : Prop := ∀ c, r.message = some c → c = .text ∨ c = .binary

@[simp] theorem refuse_message (r : Receiver Z) (code : ℕ) :
    (r.refuse code).1.message = r.message := rfl

@[simp] theorem report_message (r : Receiver Z) (data : Bytes) (opCode : OpCode) :
    (r.report data opCode).1.message = r.message := by
  unfold report
  split_ifs <;> rfl

@[simp] theorem complete_message (r : Receiver Z) (data : Bytes) (opCode : OpCode) :
    (r.complete data opCode).1.message = r.message := by
  unfold complete
  simp only
  split_ifs <;> simp

@[simp] theorem deliverControl_message (r : Receiver Z) (opCode : OpCode) (payload : Bytes) :
    (r.deliverControl opCode payload).1.message = r.message := by
  unfold deliverControl deliverClose
  simp only
  split_ifs <;> rfl

/-- The message in progress after a frame. -/
theorem deliver_message (r : Receiver Z) (h : FrameHeader) (payload : Bytes) :
    (r.deliver h payload).1.message =
      if h.isData then (if h.fin then none else some (r.messageOpCode h)) else r.message := by
  unfold deliver
  split_ifs with hdata hfin
  · unfold deliverData
    simp only [hfin, if_true]
    split_ifs <;> simp
  · simp only [deliverData, hfin, Bool.false_eq_true, if_false]
    split_ifs <;> rfl
  · exact r.deliverControl_message _ _

/-- A data frame in sequence belongs to a text or binary message. -/
theorem WellFormed.messageOpCode {r : Receiver Z} {h : FrameHeader} (hr : r.WellFormed)
    (hdata : h.isData = true) (hsequence : r.outOfSequence h = false) :
    r.messageOpCode h = .text ∨ r.messageOpCode h = .binary := by
  unfold Receiver.messageOpCode
  split_ifs with hzero
  · cases hmessage : r.message with
    | none => simp [outOfSequence, hzero, hmessage] at hsequence
    | some c => exact hr c hmessage
  · exact FrameHeader.opCode_of_isData hdata hzero

theorem WellFormed.messageOpCode_value_lt {r : Receiver Z} {h : FrameHeader} (hr : r.WellFormed)
    (hdata : h.isData = true) (hsequence : r.outOfSequence h = false) :
    (r.messageOpCode h).value < 3 := by
  rcases hr.messageOpCode hdata hsequence with htext | hbinary
  · rw [htext]; decide
  · rw [hbinary]; decide

/-- Delivering a frame in sequence keeps the receiver well formed. -/
theorem WellFormed.deliver {r : Receiver Z} {h : FrameHeader} (hr : r.WellFormed)
    (hsequence : r.outOfSequence h = false) (payload : Bytes) :
    (r.deliver h payload).1.WellFormed := by
  intro c hc
  rw [deliver_message] at hc
  split_ifs at hc with hdata hfin
  · cases hc
    exact hr.messageOpCode hdata hsequence
  · exact hr c hc

end Receiver

theorem FrameHeader.size_pos (h : FrameHeader) : 0 < h.size := by
  rcases headerLengthOf_cases h.marker with hsize | hsize | hsize <;>
    simp [FrameHeader.size, hsize]

/-- A decoded header lies inside its buffer. -/
theorem parseHeader_size_le {src : Bytes} {h : FrameHeader} (hparse : parseHeader src = some h) :
    h.size ≤ src.length := by
  unfold parseHeader at hparse
  split_ifs at hparse with _ hlength
  cases hparse
  exact Nat.le_of_not_lt hlength

/-- The opcode of a valid header keeps its nibble. -/
theorem FrameHeader.opCode_value {h : FrameHeader} (hvalid : h.malformed = false) :
    h.opCode.value = h.nibble := by
  simp only [FrameHeader.malformed, Bool.or_eq_false_iff, Bool.and_eq_false_iff,
    decide_eq_false_iff_not] at hvalid
  obtain ⟨⟨⟨⟨⟨-, hreserved⟩, hhigh⟩, -⟩, -⟩, -⟩ := hvalid
  exact OpCode.value_ofNibble (by omega)

/-- A valid control frame is final, short, and has a control opcode. -/
theorem FrameHeader.control_of_not_malformed {h : FrameHeader} (hvalid : h.malformed = false)
    (hcontrol : h.isData = false) : h.fin = true ∧ h.marker ≤ 125 ∧ 3 ≤ h.opCode.value := by
  rw [FrameHeader.opCode_value hvalid]
  simp only [FrameHeader.malformed, Bool.or_eq_false_iff, Bool.and_eq_false_iff,
    decide_eq_false_iff_not, Bool.not_eq_false'] at hvalid
  simp only [FrameHeader.isData, decide_eq_false_iff_not] at hcontrol
  obtain ⟨⟨⟨⟨⟨-, hreserved⟩, hhigh⟩, hshort⟩, -⟩, -⟩ := hvalid
  obtain ⟨hfin, hmarker⟩ := hshort.resolve_left (by omega)
  exact ⟨hfin, by omega, by omega⟩

/-- RSV1 marks the first frame of a data message only. -/
theorem Receiver.rsv1_eq_false {Z : Zlib} {r : Receiver Z} {h : FrameHeader}
    (hcompression : r.badCompression h = false) (hcontrol : h.isData = false) :
    h.rsv1 = false := by
  simpa [Receiver.badCompression, hcontrol] using hcompression

/-- A small length marker is the length itself. -/
theorem parseHeader_length {src : Bytes} {h : FrameHeader} (hparse : parseHeader src = some h)
    (hmarker : h.marker < 126) : h.length = h.marker := by
  unfold parseHeader at hparse
  split_ifs at hparse
  cases hparse
  exact if_pos hmarker

private theorem byteAt_append {src : Bytes} (ys : Bytes) {i : ℕ} (hi : i < src.length) :
    byteAt (src ++ ys) i = byteAt src i := by
  simp [byteAt, List.getD, List.getElem?_append_left hi]

private theorem slice_append {src : Bytes} (ys : Bytes) {offset count : ℕ}
    (h : offset + count ≤ src.length) :
    ((src ++ ys).drop offset).take count = (src.drop offset).take count := by
  rw [List.drop_append_of_le_length (by omega),
    List.take_append_of_le_length (by simp only [List.length_drop]; omega)]

/-- Later bytes do not change a complete header. -/
theorem parseHeader_append {src : Bytes} {h : FrameHeader} (ys : Bytes)
    (hparse : parseHeader src = some h) : parseHeader (src ++ ys) = some h := by
  unfold parseHeader at hparse
  split_ifs at hparse with hshort hlength
  have hsix : 6 ≤ src.length := by unfold shortMessageHeader at hshort; omega
  have hzero : byteAt (src ++ ys) 0 = byteAt src 0 := byteAt_append ys (by omega)
  have hone : byteAt (src ++ ys) 1 = byteAt src 1 := byteAt_append ys (by omega)
  have hmarker : payloadLength (src ++ ys) = payloadLength src := by
    simp only [payloadLength, hone]
  have hannounced : announcedLength (src ++ ys) = announcedLength src := by
    simp only [announcedLength, hmarker]
    unfold headerLengthOf mediumMessageHeader longMessageHeader at hlength
    split_ifs at hlength ⊢ with hsmall hmedium
    · rfl
    · simp only [readUint16BE]
      rw [slice_append ys (by omega)]
    · simp only [readUint64BE]
      rw [slice_append ys (by omega)]
  have hkey : readMask (src ++ ys) (headerLengthOf (payloadLength src) - 4) =
      readMask src (headerLengthOf (payloadLength src) - 4) := by
    have hcases := headerLengthOf_cases (payloadLength src)
    simp only [readMask]
    rw [byteAt_append ys (by omega), byteAt_append ys (by omega), byteAt_append ys (by omega),
      byteAt_append ys (by omega)]
  rw [← hparse, parseHeader, if_neg (by simp only [List.length_append]; omega), hmarker,
    if_neg (by simp only [List.length_append]; omega)]
  simp only [isFin, rsv1, rsv23, getOpCode, isMasked, hzero, hone, hannounced, hkey]

/-- A header that later bytes complete is longer than the bytes so far. -/
theorem length_lt_of_parseHeader {src ys : Bytes} {h : FrameHeader} (hnone : parseHeader src = none)
    (hparse : parseHeader (src ++ ys) = some h) : src.length < h.size := by
  unfold parseHeader at hnone hparse
  split_ifs at hparse with hshort hlength
  cases hparse
  have hcases := headerLengthOf_cases (payloadLength (src ++ ys))
  simp only [FrameHeader.size]
  by_contra hlong
  have hone : byteAt (src ++ ys) 1 = byteAt src 1 := byteAt_append ys (by omega)
  have hmarker : payloadLength (src ++ ys) = payloadLength src := by
    simp only [payloadLength, hone]
  rw [hmarker] at hlong hcases
  rw [if_neg (by unfold shortMessageHeader; omega), if_neg (by omega)] at hnone
  cases hnone

/-- The receiver as an incremental decoder of the byte stream. -/
def Receiver.decoder (Z : Zlib) : Streaming.Decoder (Receiver Z) UInt8 Event where
  next := Receiver.next
  next_pos := by
    intro r src r' es n h
    unfold Receiver.next at h
    split_ifs at h
    split at h
    · cases h
    · rename_i hd hparse
      have hpos := hd.size_pos
      split at h
      · cases h; exact hpos
      · split_ifs at h
        cases h
        omega
  next_le := by
    intro r src r' es n h
    unfold Receiver.next at h
    split_ifs at h
    split at h
    · cases h
    · rename_i hd hparse
      have hle := parseHeader_size_le hparse
      split at h
      · cases h; exact hle
      · split_ifs at h
        cases h
        omega
  next_append := by
    intro r src result ys h
    unfold Receiver.next at h ⊢
    split_ifs at h ⊢
    split at h
    · cases h
    · rename_i hd hparse
      rw [parseHeader_append ys hparse]
      simp only
      split at h
      · exact h
      · split_ifs at h
        rw [if_neg (by simp only [List.length_append]; omega), slice_append ys (by omega)]
        exact h

namespace Receiver

variable {Z : Zlib} {r : Receiver Z} {src : Bytes} {h : FrameHeader}

/-- A closed receiver reads nothing. -/
theorem drain_of_closing (hclosed : r.closing = true) :
    (decoder Z).drain r src = (r, src, []) :=
  (decoder Z).drain_of_next_none (by simp [decoder, next, hclosed])

theorem next_of_incomplete (hparse : parseHeader src = none) : (decoder Z).next r src = none := by
  simp [decoder, next, hparse]

theorem next_of_refused (hopen : r.closing = false) (hparse : parseHeader src = some h)
    {code : ℕ} (hjudge : r.judgeHeader h = some code) :
    (decoder Z).next r src = some ((r.refuse code).1, (r.refuse code).2, h.size) := by
  simp [decoder, next, hopen, hparse, hjudge]

theorem next_of_part (hparse : parseHeader src = some h) (hok : r.judgeHeader h = none)
    (hproper : src.length < h.size + h.length) : (decoder Z).next r src = none := by
  simp [decoder, next, hparse, hok, hproper]

theorem next_of_whole (hopen : r.closing = false) (hparse : parseHeader src = some h)
    (hok : r.judgeHeader h = none) (hwhole : h.size + h.length ≤ src.length) :
    (decoder Z).next r src =
      some ((r.deliver h (keystream h.key 0 ((src.drop h.size).take h.length))).1,
        (r.deliver h (keystream h.key 0 ((src.drop h.size).take h.length))).2,
        h.size + h.length) := by
  simp [decoder, next, hopen, hparse, hok, Nat.not_lt.mpr hwhole]

end Receiver

end Eiows
