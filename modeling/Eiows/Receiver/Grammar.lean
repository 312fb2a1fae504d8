import Eiows.Receiver.Chunks
import Eiows.Session.ChunkSize

/-!
# The client-frame grammar

What a peer may send, and which failure the first offending frame causes. The
grammar judges a byte stream frame by frame; a session accepts exactly what it
accepts, and fails with the code that it names.
-/

namespace Eiows

/-- A header that no session accepts. -/
inductive FrameHeader.Offence (h : FrameHeader) : Prop
  | unmasked (masked : h.masked = false)
  | reservedBits (rsv23 : h.rsv23 = true)
  | reservedOpCode (nibble : 3 ≤ h.nibble ∧ h.nibble ≤ 7 ∨ 11 ≤ h.nibble)
  | fragmentedControl (control : 8 ≤ h.nibble) (fin : h.fin = false)
  | longControl (control : 8 ≤ h.nibble) (marker : 125 < h.marker)
  | wastefulMedium (marker : h.marker = 126) (length : h.length < 126)
  | wastefulLong (marker : h.marker = 127) (length : h.length ≤ 65535)
  | highestBit (marker : h.marker = 127) (length : 2 ^ 63 ≤ h.length)
  | compressedControl (rsv1 : h.rsv1 = true) (control : 8 ≤ h.nibble)
  | compressedContinuation (rsv1 : h.rsv1 = true) (nibble : h.nibble = 0)

/-- The allowed codes of a Close frame. -/
def AllowedCloseCode (code : ℕ) : Prop :=
  1000 ≤ code ∧ code ≤ 1014 ∧ code ≠ 1004 ∧ code ≠ 1005 ∧ code ≠ 1006 ∨
    3000 ≤ code ∧ code ≤ 4999

/-- The payloads of valid Close frames, with the code and reason they report. -/
inductive ValidClose : Bytes → ℕ → Bytes → Prop
  | empty : ValidClose [] 1005 []
  | code (high low : UInt8) {reason : Bytes}
      (allowed : AllowedCloseCode (256 * high.toNat + low.toNat)) (text : WellFormedUtf8 reason) :
      ValidClose (high :: low :: reason) (256 * high.toNat + low.toNat) reason

namespace Receiver

variable {Z : Zlib}

/-- A frame that violates the protocol once its header is known. -/
inductive ProtocolError (r : Receiver Z) (h : FrameHeader) : Prop
  | header (offence : h.Offence)
  | notNegotiated (rsv1 : h.rsv1 = true) (disabled : r.compression = .disabled)
  | interleaved (nibble : h.nibble = 1 ∨ h.nibble = 2) (inside : r.message.isSome = true)
  | orphan (nibble : h.nibble = 0) (outside : r.message = none)

/-- A data frame that makes its message longer than the session allows. -/
def TooLong (r : Receiver Z) (h : FrameHeader) : Prop :=
  h.nibble ≤ 2 ∧ ((r.maxPayload ≠ 0 ∧ r.maxPayload < r.data.length + h.length) ∨
    2 ^ 32 - 1 < r.data.length + h.length)

/-- The offences of a header, with their failure codes. -/
inductive HeaderOffence (r : Receiver Z) (h : FrameHeader) : ℕ → Prop
  | protocolError (error : r.ProtocolError h) : HeaderOffence r h 1002
  | tooLong (valid : ¬r.ProtocolError h) (tooLong : r.TooLong h) : HeaderOffence r h 1009

/-- The last frame of a message, with the opcode of the message. -/
structure Completes (r : Receiver Z) (h : FrameHeader) (opCode : OpCode) : Prop where
  data : h.nibble ≤ 2
  fin : h.fin = true
  opCode : r.messageOpCode h = opCode

/-- The content of a message: what its wire encodes in full, and nothing else, by any
description of zlib. The stream is initialised on first use. -/
def Content (stream : Option Z.Inflate) (wire content : Bytes) : Prop :=
  ∀ D : Z.Decoder, ∃ z, stream.or Z.inflateInit = some z ∧ ∀ other,
    (∃ n, Zlib.Decodes D z (wire ++ deflateTrailer) n other) ↔ other = content

/-- The result of inflating a complete message with the stream of the session. -/
structure Inflates (r : Receiver Z) (wire : Bytes) (result : InflateResult) (content : Bytes)
    (stream' : Option Z.Inflate) : Prop where
  inflated : ∃ stream, r.inflater = some stream ∧ Z.inflateMessage stream wire r.maxPayload
    (hasOption r.options CLIENT_NO_CONTEXT_TAKEOVER) = (result, content, stream')
  content : result = .success → ∃ stream, r.inflater = some stream ∧ Content stream wire content

/-- The offences of a complete payload or message, with their failure codes. -/
inductive PayloadOffence (r : Receiver Z) (h : FrameHeader) (payload : Bytes) : ℕ → Prop
  | close (nibble : h.nibble = 8) (invalid : ¬∃ code reason, ValidClose payload code reason) :
      PayloadOffence r h payload 1002
  | text (completes : r.Completes h .text) (plain : r.compressionIn h ≠ .compressedFrame)
      (invalid : ¬WellFormedUtf8 (r.data ++ payload)) : PayloadOffence r h payload 1007
  | inflatedText (completes : r.Completes h .text)
      (compressed : r.compressionIn h = .compressedFrame) (content : Bytes)
      (stream' : Option Z.Inflate)
      (inflates : r.Inflates (r.data ++ payload) .success content stream')
      (invalid : ¬WellFormedUtf8 content) : PayloadOffence r h payload 1007
  | invalidData (opCode : OpCode) (completes : r.Completes h opCode)
      (compressed : r.compressionIn h = .compressedFrame) (content : Bytes)
      (stream' : Option Z.Inflate)
      (inflates : r.Inflates (r.data ++ payload) .invalidData content stream') :
      PayloadOffence r h payload 1007
  | payloadTooLarge (opCode : OpCode) (completes : r.Completes h opCode)
      (compressed : r.compressionIn h = .compressedFrame) (content : Bytes)
      (stream' : Option Z.Inflate)
      (inflates : r.Inflates (r.data ++ payload) .payloadTooLarge content stream') :
      PayloadOffence r h payload 1009
  | tooLongToInflate (opCode : OpCode) (completes : r.Completes h opCode)
      (compressed : r.compressionIn h = .compressedFrame)
      (long : 2 ^ 32 - 5 < (r.data ++ payload).length) : PayloadOffence r h payload 1011

/-- The effect of a frame that is no offence and does not end the connection. -/
inductive FrameEffect (r : Receiver Z) (h : FrameHeader) (payload : Bytes) :
    Receiver Z → List Event → Prop
  | ping (nibble : h.nibble = 9) :
      FrameEffect r h payload r [.frame (0x8a :: UInt8.ofNat payload.length :: payload)]
  | pong (nibble : h.nibble = 10) : FrameEffect r h payload r []
  | fragment (data : h.nibble ≤ 2) (more : h.fin = false) :
      FrameEffect r h payload { r with
        compression := r.compressionIn h
        message := some (r.messageOpCode h)
        data := r.data ++ payload } []
  | message (opCode : OpCode) (completes : r.Completes h opCode)
      (plain : r.compressionIn h ≠ .compressedFrame)
      (text : opCode = .text → WellFormedUtf8 (r.data ++ payload)) :
      FrameEffect r h payload { r with message := none, data := [] }
        [.message (r.data ++ payload) opCode]
  | compressed (opCode : OpCode) (completes : r.Completes h opCode)
      (compressed : r.compressionIn h = .compressedFrame) (content : Bytes)
      (stream' : Option Z.Inflate)
      (inflates : r.Inflates (r.data ++ payload) .success content stream')
      (text : opCode = .text → WellFormedUtf8 content) :
      FrameEffect r h payload { r with
        message := none
        data := []
        compression := .enabled
        inflater := some stream' } [.message content opCode]

end Receiver

/-- How a byte stream ends so far. -/
inductive Verdict where
  | waiting
  | failed (code : ℕ)
  | closed (payload : Bytes) (code : ℕ) (reason : Bytes)

/-- A failure is announced and reported once; a valid Close frame is echoed and
reported. -/
def Verdict.events : Verdict → List Event
  | .waiting => []
  | .failed code => [.frame (0x88 :: 2 :: bigEndianBytes 2 code), .close 1006 []]
  | .closed payload code reason =>
    [.frame (0x88 :: UInt8.ofNat payload.length :: payload), .close code reason]

/-- Whether the verdict ends the connection. -/
def Verdict.ended : Verdict → Bool
  | .waiting => false
  | _ => true

/-- A frame in a byte stream: its header, its payload, and the bytes behind it. -/
structure FrameAt (src : Bytes) (h : FrameHeader) (payload rest : Bytes) : Prop where
  parsed : parseHeader src = some h
  complete : h.size + h.length ≤ src.length
  payload : payload = keystream h.key 0 ((src.drop h.size).take h.length)
  rest : rest = src.drop (h.size + h.length)

/-- The events before the end: messages, and Pong frames. -/
def Event.IsReport (e : Event) : Prop :=
  (∃ payload opCode, e = .message payload opCode) ∨
    ∃ payload, e = .frame (0x8a :: UInt8.ofNat payload.length :: payload)

/-- The judgement of a byte stream: the events of the frames before the end, and
how it ends. -/
inductive Receiver.Judged {Z : Zlib} : Receiver Z → Bytes → List Event → Verdict → Prop
  | incompleteHeader {r : Receiver Z} {src : Bytes} (incomplete : parseHeader src = none) :
      Judged r src [] .waiting
  | headerOffence {r : Receiver Z} {src : Bytes} {h : FrameHeader} {code : ℕ}
      (parsed : parseHeader src = some h) (offence : r.HeaderOffence h code) :
      Judged r src [] (.failed code)
  | incompletePayload {r : Receiver Z} {src : Bytes} {h : FrameHeader}
      (parsed : parseHeader src = some h) (valid : ¬∃ code, r.HeaderOffence h code)
      (incomplete : src.length < h.size + h.length) : Judged r src [] .waiting
  | payloadOffence {r : Receiver Z} {src : Bytes} {h : FrameHeader} {payload rest : Bytes}
      {code : ℕ} (frame : FrameAt src h payload rest) (valid : ¬∃ code, r.HeaderOffence h code)
      (offence : r.PayloadOffence h payload code) : Judged r src [] (.failed code)
  | close {r : Receiver Z} {src : Bytes} {h : FrameHeader} {payload rest : Bytes} {code : ℕ}
      {reason : Bytes} (frame : FrameAt src h payload rest)
      (valid : ¬∃ code, r.HeaderOffence h code) (nibble : h.nibble = 8)
      (validClose : ValidClose payload code reason) :
      Judged r src [] (.closed payload code reason)
  | frame {r r' : Receiver Z} {src : Bytes} {h : FrameHeader} {payload rest : Bytes}
      {es es' : List Event} {verdict : Verdict} (frame : FrameAt src h payload rest)
      (valid : ¬∃ code, r.HeaderOffence h code) (effect : r.FrameEffect h payload r' es)
      (continues : Judged r' rest es' verdict) : Judged r src (es ++ es') verdict

theorem validCloseCode_iff (code : ℕ) : validCloseCode code = true ↔ AllowedCloseCode code := by
  simp only [validCloseCode, AllowedCloseCode, Bool.or_eq_true, Bool.and_eq_true,
    decide_eq_true_eq, bne_iff_ne, and_assoc]

private theorem readUint16BE_cons (high low : UInt8) (rest : Bytes) :
    readUint16BE (high :: low :: rest) 0 = 256 * high.toNat + low.toNat := by
  simp [readUint16BE, bigEndian]

/-- A valid Close payload is parsed into its code and reason. -/
theorem ValidClose.parse {payload reason : Bytes} {code : ℕ} (h : ValidClose payload code reason) :
    parseClosePayload payload = ⟨code, reason⟩ ∧ code ≠ 1006 := by
  cases h with
  | empty => exact ⟨rfl, by decide⟩
  | code high low hallowed htext =>
    refine ⟨?_, by unfold AllowedCloseCode at hallowed; omega⟩
    have hcode := (validCloseCode_iff _).mpr hallowed
    have hreason := (isValidUtf8_iff _).mpr htext
    simp [parseClosePayload, readUint16BE_cons, hcode, hreason]

/-- Any other payload is parsed into the code 1006. -/
theorem parseClosePayload_invalid {payload : Bytes}
    (h : ¬∃ code reason, ValidClose payload code reason) :
    (parseClosePayload payload).code = 1006 := by
  match payload with
  | [] => exact absurd ⟨1005, [], .empty⟩ h
  | [_] => rfl
  | high :: low :: reason =>
    have hinvalid : (!validCloseCode (256 * high.toNat + low.toNat) || !isValidUtf8 reason) =
        true := by
      by_contra hvalid
      simp only [Bool.or_eq_true, Bool.not_eq_true', not_or, Bool.not_eq_false,
        validCloseCode_iff, isValidUtf8_iff] at hvalid
      exact h ⟨_, reason, .code high low hvalid.1 hvalid.2⟩
    simp only [parseClosePayload, readUint16BE_cons, List.drop_succ_cons, List.drop_zero, hinvalid]
    simp

private theorem bigEndianBytes_two (high low : UInt8) :
    bigEndianBytes 2 (256 * high.toNat + low.toNat) = [high, low] := by
  have hhigh := high.toNat_lt
  have hlow := low.toNat_lt
  have hdiv : (256 * high.toNat + low.toNat) / 256 % 256 = high.toNat := by omega
  have hmod : (256 * high.toNat + low.toNat) % 256 = low.toNat := by omega
  simp only [bigEndianBytes, hdiv, hmod, UInt8.ofNat_toNat, List.nil_append, List.cons_append]

/-- The echo of a valid Close frame has its payload. -/
theorem ValidClose.echo {payload reason : Bytes} {code : ℕ} (h : ValidClose payload code reason)
    (hshort : payload.length ≤ 125) :
    formatClose code reason = 0x88 :: UInt8.ofNat payload.length :: payload := by
  cases h with
  | empty => rfl
  | code high low hallowed htext =>
    have hcode : 256 * high.toNat + low.toNat ≠ 0 ∧ 256 * high.toNat + low.toNat ≠ 1005 ∧
        256 * high.toNat + low.toNat ≠ 1006 := by
      unfold AllowedCloseCode at hallowed
      omega
    have htake : reason.take 123 = reason := by
      simp only [List.length_cons] at hshort
      exact List.take_of_length_le (by omega)
    have hpayload : formatClosePayload (256 * high.toNat + low.toNat) reason =
        high :: low :: reason := by
      rw [formatClosePayload, if_pos hcode, bigEndianBytes_two, (isValidUtf8_iff _).mpr htext]
      cases reason <;> rfl
    rw [formatClose, htake, hpayload, formatFrame_short .close hshort]
    rfl

theorem formatClose_failure {code : ℕ} (h : code ≠ 0 ∧ code ≠ 1005 ∧ code ≠ 1006) :
    formatClose code [] = 0x88 :: 2 :: bigEndianBytes 2 code := by
  have hpayload : formatClosePayload code [] = bigEndianBytes 2 code := by
    simp [formatClosePayload, h]
  rw [formatClose, List.take_nil, hpayload, formatFrame_short .close (by simp),
    bigEndianBytes_length]
  rfl

namespace Receiver

variable {Z : Zlib} {r : Receiver Z} {h : FrameHeader}

/-- What holds of a receiver at every frame boundary before the end. -/
structure Coherent (r : Receiver Z) : Prop where
  receiverOpen : r.closing = false
  notSent : r.closeSent = false
  wellFormed : r.WellFormed
  compressed : r.compression = .compressedFrame → r.message.isSome = true
  inflater : r.compression ≠ .disabled → r.inflater.isSome = true

theorem create_coherent (options maxPayload : ℕ)
    (compressionContext : Option (CompressionContext Z)) :
    (Receiver.create options maxPayload compressionContext).Coherent where
  receiverOpen := rfl
  notSent := rfl
  wellFormed := by simp [WellFormed, Receiver.create]
  compressed := by
    simp only [Receiver.create]
    split_ifs <;> simp
  inflater := by
    simp only [Receiver.create]
    split_ifs <;> simp

/-- The checks for the code 1002 find exactly the protocol errors. -/
theorem protocolError_iff (hr : r.Coherent) :
    (h.malformed || r.badCompression h || r.outOfSequence h) = true ↔ r.ProtocolError h := by
  simp only [FrameHeader.malformed, badCompression, outOfSequence, FrameHeader.isData,
    Bool.or_eq_true, Bool.and_eq_true, Bool.not_eq_true', decide_eq_true_eq, bne_iff_ne, beq_iff_eq,
    decide_eq_false_iff_not]
  constructor
  · rintro ((((((((hmasked | hrsv23) | hreserved) | hhigh) | ⟨hlarge, hcontrol⟩) | hmedium) | hlong) |
      ⟨hrsv1, hplace⟩) | ⟨⟨hdata, hnonzero⟩, hinside⟩ | ⟨hzero, houtside⟩)
    · exact .header (.unmasked hmasked)
    · exact .header (.reservedBits hrsv23)
    · exact .header (.reservedOpCode (.inl (by omega)))
    · exact .header (.reservedOpCode (.inr (by omega)))
    · by_cases hreserved : h.nibble ≤ 7
      · exact .header (.reservedOpCode (.inl ⟨by omega, hreserved⟩))
      · rcases hcontrol with hfin | hmarker
        · exact .header (.fragmentedControl (by omega) hfin)
        · exact .header (.longControl (by omega) hmarker)
    · exact .header (.wastefulMedium hmedium.1 hmedium.2)
    · rcases hlong with ⟨hmarker, hhighest | hshort⟩
      · exact .header (.highestBit hmarker hhighest)
      · exact .header (.wastefulLong hmarker hshort)
    · by_cases hzero : h.nibble = 0
      · exact .header (.compressedContinuation hrsv1 hzero)
      by_cases hdata : h.nibble ≤ 2
      · -- RSV1 on a new message: without compression, or inside a compressed message.
        cases hcompression : r.compression with
        | disabled => exact .notNegotiated hrsv1 hcompression
        | enabled => simp [hzero, hdata, hcompression] at hplace
        | compressedFrame => exact .interleaved (by omega) (hr.compressed hcompression)
      by_cases hreserved : h.nibble ≤ 7
      · exact .header (.reservedOpCode (.inl ⟨by omega, hreserved⟩))
      · exact .header (.compressedControl hrsv1 (by omega))
    · exact .interleaved (by omega) hinside
    · exact .orphan hzero (Option.isNone_iff_eq_none.mp houtside)
  · rintro (⟨hmasked | hrsv23 | hreserved | ⟨hlarge, hfin⟩ | ⟨hlarge, hmarker⟩ | ⟨hmarker, hlength⟩ |
      ⟨hmarker, hlength⟩ | ⟨hmarker, hlength⟩ | ⟨hrsv1, hlarge⟩ | ⟨hrsv1, hzero⟩⟩ |
      ⟨hrsv1, hdisabled⟩ | ⟨hnibble, hinside⟩ | ⟨hzero, houtside⟩)
    · simp [hmasked]
    · simp [hrsv23]
    · rcases hreserved with hlow | hhigh
      · exact .inl (.inl (.inl (.inl (.inl (.inl (.inr (by omega)))))))
      · exact .inl (.inl (.inl (.inl (.inl (.inr (by omega))))))
    · exact .inl (.inl (.inl (.inl (.inr ⟨by omega, .inl hfin⟩))))
    · exact .inl (.inl (.inl (.inl (.inr ⟨by omega, .inr hmarker⟩))))
    · exact .inl (.inl (.inl (.inr ⟨hmarker, hlength⟩)))
    · exact .inl (.inl (.inr ⟨hmarker, .inr hlength⟩))
    · exact .inl (.inl (.inr ⟨hmarker, .inl hlength⟩))
    · exact .inl (.inr ⟨hrsv1, .inl (.inr (by omega))⟩)
    · exact .inl (.inr ⟨hrsv1, .inl (.inl hzero)⟩)
    · exact .inl (.inr ⟨hrsv1, .inr (by simp [hdisabled])⟩)
    · exact .inr (.inl ⟨by omega, hinside⟩)
    · exact .inr (.inr ⟨hzero, Option.isNone_iff_eq_none.mpr houtside⟩)

/-- The receiver refuses a header exactly for its offence. -/
theorem judgeHeader_eq_some_iff (hr : r.Coherent) {code : ℕ} :
    r.judgeHeader h = some code ↔ r.HeaderOffence h code := by
  have htooLong : r.tooLong h = true ↔ r.TooLong h := by
    simp only [tooLong, TooLong, FrameHeader.isData, hr.notSent, Bool.and_eq_true,
      decide_eq_true_eq, Bool.false_eq_true, if_false, payloadLimit_lt, unsignedMax]
  have herror := protocolError_iff (h := h) hr
  unfold judgeHeader
  by_cases hbad : (h.malformed || r.badCompression h || r.outOfSequence h) = true
  · rw [if_pos hbad]
    constructor
    · rintro ⟨⟩
      exact .protocolError (herror.mp hbad)
    · rintro (_ | ⟨hvalid, _⟩)
      · rfl
      · exact absurd (herror.mp hbad) hvalid
  · rw [if_neg hbad]
    have hvalid : ¬r.ProtocolError h := fun error => hbad (herror.mpr error)
    constructor
    · intro hcode
      split_ifs at hcode with hlong
      cases hcode
      exact .tooLong hvalid (htooLong.mp hlong)
    · rintro (error | ⟨_, hlong⟩)
      · exact absurd error hvalid
      · rw [if_pos (htooLong.mpr hlong)]

/-- A frame may follow exactly when its header is no offence. -/
theorem judgeHeader_eq_none_iff (hr : r.Coherent) :
    r.judgeHeader h = none ↔ ¬∃ code, r.HeaderOffence h code := by
  rw [Option.eq_none_iff_forall_ne_some]
  simp only [ne_eq, judgeHeader_eq_some_iff hr, not_exists]

/-- A delivered frame has ended the connection with a verdict. -/
structure Ends (delivered : Receiver Z × List Event) (verdict : Verdict) : Prop where
  closing : delivered.1.closing = true
  closeSent : delivered.1.closeSent = true
  events : delivered.2 = verdict.events

theorem refuse_ends (r : Receiver Z) {code : ℕ} (hcode : code ≠ 0 ∧ code ≠ 1005 ∧ code ≠ 1006)
    (hsent : r.closeSent = false) : Ends (r.refuse code) (.failed code) := by
  refine ⟨rfl, rfl, ?_⟩
  simp only [refuse, hsent, Bool.false_eq_true, if_false, Verdict.events,
    formatClose_failure hcode]
  rfl

theorem isData_iff : h.isData = true ↔ h.nibble ≤ 2 := by
  simp only [FrameHeader.isData, decide_eq_true_eq]

/-- The last frame of an uncompressed message reports its payload. -/
theorem Completes.deliver_plain {opCode : OpCode} (hcompletes : r.Completes h opCode)
    (hr : r.Coherent) (hplain : r.compressionIn h ≠ .compressedFrame) (payload : Bytes) :
    r.deliver h payload =
      ({ r with message := none, data := [] } : Receiver Z).report (r.data ++ payload) opCode := by
  have hsame : r.compressionIn h = r.compression := by
    unfold compressionIn at hplain ⊢
    split_ifs at hplain ⊢
    · exact absurd rfl hplain
    · rfl
  rw [deliver_last payload (isData_iff.mpr hcompletes.data) hr.notSent hcompletes.fin,
    hcompletes.opCode, complete, if_neg hplain, hsame]

/-- The last frame of a compressed message inflates its payload, and reports the
content when that succeeds. -/
theorem Completes.deliver_compressed {opCode : OpCode} {payload content : Bytes}
    {result : InflateResult} {stream' : Option Z.Inflate} (hcompletes : r.Completes h opCode)
    (hr : r.Coherent) (hcompressed : r.compressionIn h = .compressedFrame)
    (hinflates : r.Inflates (r.data ++ payload) result content stream') :
    r.deliver h payload =
      let r' : Receiver Z := { r with
        message := none, data := [], compression := .enabled, inflater := some stream' }
      if result ≠ .success then r'.refuse (closeCodeForInflateResult result)
      else r'.report content opCode := by
  obtain ⟨⟨stream, hstream, hresult⟩, -⟩ := hinflates
  rw [deliver_last payload (isData_iff.mpr hcompletes.data) hr.notSent hcompletes.fin,
    hcompletes.opCode]
  simp only [complete, hcompressed, if_true, inflate, hstream, hresult]

theorem deliver_of_close (hclose : h.nibble = 8) (payload : Bytes) :
    r.deliver h payload = r.deliverClose payload := by
  have hopCode : h.opCode = .close := by rw [FrameHeader.opCode, hclose]; rfl
  have hcontrol : h.isData = false := by simp [FrameHeader.isData, hclose]
  simp only [deliver, hcontrol, Bool.false_eq_true, if_false, hopCode, deliverControl, if_true]

/-- Where RSV1 is allowed, the session has an inflate stream. -/
theorem Coherent.inflater_isSome (hr : r.Coherent) (hrsv : r.badCompression h = false)
    (hne : r.compressionIn h ≠ .disabled) : r.inflater.isSome = true := by
  refine hr.inflater fun hdisabled => ?_
  unfold compressionIn at hne
  cases hset : h.rsv1 with
  | false => simp [hset, hdisabled] at hne
  | true => simp [badCompression, hset, hdisabled] at hrsv

/-- What `inflateMessage` returns on success is the content of the message. -/
theorem content_of_inflateMessage {stream stream' : Option Z.Inflate} {wire content : Bytes}
    {maxPayload : ℕ} {resetAfter : Bool}
    (h : Z.inflateMessage stream wire maxPayload resetAfter = (.success, content, stream')) :
    Content stream wire content := by
  intro D
  obtain ⟨-, z, hstream, hdecodes⟩ : _ ∧ _ := Zlib.inflateMessageWith_success D
    (by decide : 0 < zlibChunkSize) (congrArg Prod.fst h)
  have houtput : (Z.inflateMessageWith zlibChunkSize stream wire maxPayload resetAfter).2.1 =
      content := congrArg (·.2.1) h
  rw [houtput] at hdecodes
  refine ⟨z, hstream, fun other => ⟨?_, ?_⟩⟩
  · rintro ⟨n, hother⟩
    exact (hother.unique hdecodes).2
  · rintro rfl
    exact ⟨_, hdecodes⟩

/-- Inflating a message of such a session has a result. -/
theorem Coherent.inflates (hr : r.Coherent) (hrsv : r.badCompression h = false)
    (hcompressed : r.compressionIn h = .compressedFrame) (wire : Bytes) :
    ∃ result content stream', r.Inflates wire result content stream' := by
  obtain ⟨stream, hstream⟩ := Option.isSome_iff_exists.mp
    (hr.inflater_isSome hrsv (by rw [hcompressed]; decide))
  refine ⟨_, _, _, ⟨stream, hstream, rfl⟩, fun hsuccess => ⟨stream, hstream, ?_⟩⟩
  exact content_of_inflateMessage (Prod.ext hsuccess rfl)

/-- The result is an internal error exactly for a message that is too long. -/
theorem Inflates.internalError_iff (hz : Z.Reliable) {wire content : Bytes}
    {result : InflateResult} {stream' : Option Z.Inflate}
    (h : r.Inflates wire result content stream') :
    result = .internalError ↔ 2 ^ 32 - 5 < wire.length := by
  obtain ⟨⟨stream, -, hresult⟩, -⟩ := h
  rw [← hz.inflateMessage stream wire r.maxPayload (hasOption r.options CLIENT_NO_CONTEXT_TAKEOVER),
    hresult]

/-- Every offence of a payload fails with its code. -/
theorem PayloadOffence.deliver_ends {payload : Bytes} {code : ℕ} (hz : Z.Reliable)
    (hr : r.Coherent) (hrsv : r.badCompression h = false)
    (hoffence : r.PayloadOffence h payload code) :
    Ends (r.deliver h payload) (.failed code) := by
  cases hoffence with
  | close hclose hinvalid =>
    rw [deliver_of_close hclose]
    simp only [deliverClose, parseClosePayload_invalid hinvalid, if_true]
    exact refuse_ends r (by decide) hr.notSent
  | text hcompletes hplain hinvalid =>
    rw [hcompletes.deliver_plain hr hplain, report_of_invalid hinvalid]
    exact refuse_ends _ (by decide) hr.notSent
  | inflatedText hcompletes hcompressed content stream' hinflates hinvalid =>
    rw [hcompletes.deliver_compressed hr hcompressed hinflates]
    simp only [ne_eq, not_true_eq_false, if_false, report_of_invalid hinvalid]
    exact refuse_ends _ (by decide) hr.notSent
  | invalidData opCode hcompletes hcompressed content stream' hinflates =>
    rw [hcompletes.deliver_compressed hr hcompressed hinflates]
    exact refuse_ends _ (by decide) hr.notSent
  | payloadTooLarge opCode hcompletes hcompressed content stream' hinflates =>
    rw [hcompletes.deliver_compressed hr hcompressed hinflates]
    exact refuse_ends _ (by decide) hr.notSent
  | tooLongToInflate opCode hcompletes hcompressed hlong =>
    obtain ⟨result, content, stream', hinflates⟩ := hr.inflates hrsv hcompressed (r.data ++ payload)
    have hresult := (hinflates.internalError_iff hz).mpr hlong
    subst hresult
    rw [hcompletes.deliver_compressed hr hcompressed hinflates]
    exact refuse_ends _ (by decide) hr.notSent

/-- A valid Close frame is echoed and reported. -/
theorem deliver_close_ends {payload reason : Bytes} {code : ℕ} (hr : r.Coherent)
    (hclose : h.nibble = 8) (hpayload : ValidClose payload code reason)
    (hshort : payload.length ≤ 125) :
    Ends (r.deliver h payload) (.closed payload code reason) := by
  obtain ⟨hparse, hcode⟩ := hpayload.parse
  rw [deliver_of_close hclose]
  simp only [deliverClose, hparse, hcode, if_false, hr.notSent, Bool.false_eq_true]
  exact ⟨rfl, rfl, by rw [hpayload.echo hshort]; rfl⟩

/-- Every effect of a frame is that of delivering it. -/
theorem FrameEffect.deliver {r' : Receiver Z} {payload : Bytes} {es : List Event}
    (hr : r.Coherent) (hsequence : r.outOfSequence h = false) (hrsv : r.badCompression h = false)
    (hshort : h.isData = false → payload.length ≤ 125) (heffect : r.FrameEffect h payload r' es) :
    r.deliver h payload = (r', es) ∧ r'.Coherent := by
  cases heffect with
  | ping hping =>
    have hopCode : h.opCode = .ping := by rw [FrameHeader.opCode, hping]; rfl
    have hcontrol : h.isData = false := by simp [FrameHeader.isData, hping]
    have hanswer : formatFrame payload .pong false =
        0x8a :: UInt8.ofNat payload.length :: payload := formatFrame_short .pong (hshort hcontrol)
    refine ⟨?_, hr⟩
    simp only [Receiver.deliver, hcontrol, Bool.false_eq_true, if_false, hopCode, deliverControl,
      reduceCtorEq, if_true, hanswer]
  | pong hpong =>
    have hopCode : h.opCode = .pong := by rw [FrameHeader.opCode, hpong]; rfl
    have hcontrol : h.isData = false := by simp [FrameHeader.isData, hpong]
    refine ⟨?_, hr⟩
    simp only [Receiver.deliver, hcontrol, Bool.false_eq_true, if_false, hopCode, deliverControl,
      reduceCtorEq]
  | fragment hdata hmore =>
    refine ⟨deliver_more payload (isData_iff.mpr hdata) hr.notSent hmore, hr.receiverOpen,
      hr.notSent, ?_, fun _ => rfl, hr.inflater_isSome hrsv⟩
    intro c hc
    cases hc
    exact hr.wellFormed.messageOpCode (isData_iff.mpr hdata) hsequence
  | message opCode hcompletes hplain htext =>
    refine ⟨by rw [hcompletes.deliver_plain hr hplain, report_of_valid htext], hr.receiverOpen,
      hr.notSent, by simp [WellFormed], fun hframe => ?_, hr.inflater⟩
    unfold compressionIn at hplain
    split_ifs at hplain
    · exact absurd rfl hplain
    · exact absurd hframe hplain
  | compressed opCode hcompletes hcompressed content stream' hinflates htext =>
    refine ⟨?_, hr.receiverOpen, hr.notSent, by simp [WellFormed], by simp, by simp⟩
    rw [hcompletes.deliver_compressed hr hcompressed hinflates]
    simp only [ne_eq, not_true_eq_false, if_false, report_of_valid htext]

/-- A complete frame with a valid header is an offence, closes the connection, or
has its effect. -/
theorem frame_cases (hz : Z.Reliable) (hr : r.Coherent) (hvalid : h.malformed = false)
    (hrsv : r.badCompression h = false) (payload : Bytes) :
    (∃ code, r.PayloadOffence h payload code) ∨
      (h.nibble = 8 ∧ ∃ code reason, ValidClose payload code reason) ∨
      ∃ r' es, r.FrameEffect h payload r' es := by
  have hvalues : ∀ opCode : OpCode, opCode.value ≤ 2 ∨ opCode.value = 8 ∨ opCode.value = 9 ∨
      opCode.value = 10 := by
    intro opCode
    cases opCode <;> decide
  have hnibble := hvalues h.opCode
  rw [FrameHeader.opCode_value hvalid] at hnibble
  rcases hnibble with hdata | hclose | hping | hpong
  · cases hfin : h.fin with
    | false => exact .inr (.inr ⟨_, _, .fragment hdata hfin⟩)
    | true =>
      have hcompletes : ∀ {opCode}, r.messageOpCode h = opCode → r.Completes h opCode :=
        fun hopCode => ⟨hdata, hfin, hopCode⟩
      by_cases hcompressed : r.compressionIn h = .compressedFrame
      · obtain ⟨result, content, stream', hinflates⟩ :=
          hr.inflates hrsv hcompressed (r.data ++ payload)
        cases result with
        | success =>
          by_cases hinvalid : r.messageOpCode h = .text ∧ ¬WellFormedUtf8 content
          · exact .inl ⟨1007, .inflatedText (hcompletes hinvalid.1) hcompressed content stream'
              hinflates hinvalid.2⟩
          · exact .inr (.inr ⟨_, _, .compressed _ (hcompletes rfl) hcompressed content stream'
              hinflates fun htext => by_contra fun hno => hinvalid ⟨htext, hno⟩⟩)
        | invalidData =>
          exact .inl ⟨1007, .invalidData _ (hcompletes rfl) hcompressed content stream' hinflates⟩
        | payloadTooLarge =>
          exact .inl ⟨1009, .payloadTooLarge _ (hcompletes rfl) hcompressed content stream' hinflates⟩
        | internalError =>
          exact .inl ⟨1011, .tooLongToInflate _ (hcompletes rfl) hcompressed
            ((hinflates.internalError_iff hz).mp rfl)⟩
      · by_cases hinvalid : r.messageOpCode h = .text ∧ ¬WellFormedUtf8 (r.data ++ payload)
        · exact .inl ⟨1007, .text (hcompletes hinvalid.1) hcompressed hinvalid.2⟩
        · exact .inr (.inr ⟨_, _, .message _ (hcompletes rfl) hcompressed
            fun htext => by_contra fun hno => hinvalid ⟨htext, hno⟩⟩)
  · by_cases hpayload : ∃ code reason, ValidClose payload code reason
    · exact .inr (.inl ⟨hclose, hpayload⟩)
    · exact .inl ⟨1002, .close hclose hpayload⟩
  · exact .inr (.inr ⟨_, _, .ping hping⟩)
  · exact .inr (.inr ⟨_, _, .pong hpong⟩)

/-- Every effect of a frame is a message or a Pong. -/
theorem FrameEffect.isReport {r' : Receiver Z} {payload : Bytes} {es : List Event}
    (heffect : r.FrameEffect h payload r' es) : ∀ e ∈ es, e.IsReport := by
  cases heffect with
  | ping _ =>
    intro e he
    exact .inr ⟨payload, List.mem_singleton.mp he⟩
  | pong _ => simp
  | fragment _ _ => simp
  | message opCode _ _ _ =>
    intro e he
    exact .inl ⟨_, opCode, List.mem_singleton.mp he⟩
  | compressed opCode _ _ content _ _ _ =>
    intro e he
    exact .inl ⟨content, opCode, List.mem_singleton.mp he⟩

end Receiver

section Judgement

variable {Z : Zlib} {r : Receiver Z} {src payload rest : Bytes} {h : FrameHeader}

theorem FrameAt.length (hframe : FrameAt src h payload rest) : payload.length = h.length := by
  have hcomplete := hframe.complete
  rw [hframe.payload, keystream_length, List.length_take, List.length_drop]
  omega

/-- The payload of a control frame is short. -/
theorem FrameAt.short (hframe : FrameAt src h payload rest) (hvalid : h.malformed = false)
    (hcontrol : h.isData = false) : payload.length ≤ 125 := by
  obtain ⟨-, hmarker, -⟩ := FrameHeader.control_of_not_malformed hvalid hcontrol
  rw [hframe.length, parseHeader_length hframe.parsed (by omega)]
  exact hmarker

/-- A receiver reads the frame at the front of its buffer. -/
theorem FrameAt.next (hframe : FrameAt src h payload rest) (hopen : r.closing = false)
    (hok : r.judgeHeader h = none) :
    (Receiver.decoder Z).next r src =
      some ((r.deliver h payload).1, (r.deliver h payload).2, h.size + h.length) := by
  rw [hframe.payload]
  exact Receiver.next_of_whole hopen hframe.parsed hok hframe.complete

/-- Every byte stream has a judgement. -/
theorem Receiver.judged_exists (hz : Z.Reliable) (r : Receiver Z) (hr : r.Coherent) (src : Bytes) :
    ∃ es verdict, r.Judged src es verdict := by
  cases hparse : parseHeader src with
  | none => exact ⟨[], .waiting, .incompleteHeader hparse⟩
  | some h =>
    by_cases hoffence : ∃ code, r.HeaderOffence h code
    · obtain ⟨code, hoffence⟩ := hoffence
      exact ⟨[], .failed code, .headerOffence hparse hoffence⟩
    by_cases hcomplete : h.size + h.length ≤ src.length
    · have hframe : FrameAt src h _ _ := ⟨hparse, hcomplete, rfl, rfl⟩
      obtain ⟨hvalid, hrsv, hsequence, -⟩ :=
        Receiver.judgeHeader_eq_none.mp ((Receiver.judgeHeader_eq_none_iff hr).mpr hoffence)
      rcases Receiver.frame_cases hz hr hvalid hrsv
          (keystream h.key 0 ((src.drop h.size).take h.length)) with
        ⟨code, hpayload⟩ | ⟨hclose, code, reason, hpayload⟩ | ⟨r', es, heffect⟩
      · exact ⟨[], .failed code, .payloadOffence hframe hoffence hpayload⟩
      · exact ⟨[], _, .close hframe hoffence hclose hpayload⟩
      · obtain ⟨-, hr'⟩ := heffect.deliver hr hsequence hrsv (hframe.short hvalid)
        obtain ⟨es', verdict, hjudged⟩ :=
          judged_exists hz r' hr' (src.drop (h.size + h.length))
        exact ⟨es ++ es', verdict, .frame hframe hoffence heffect hjudged⟩
    · exact ⟨[], .waiting, .incompletePayload hparse hoffence (by omega)⟩
  termination_by src.length
  decreasing_by
    have hpos := h.size_pos
    simp only [List.length_drop]
    omega

/-- A unit that ends the connection is the last one read. -/
theorem Receiver.Ends.drain {delivered : Receiver Z × List Event} {verdict : Verdict} {n : ℕ}
    (hends : Receiver.Ends delivered verdict) (hended : verdict.ended = true)
    (hnext : (Receiver.decoder Z).next r src = some (delivered.1, delivered.2, n)) :
    ((Receiver.decoder Z).drain r src).2.2 = [] ++ verdict.events ∧
      ((Receiver.decoder Z).drain r src).1.closing = verdict.ended ∧
      ((Receiver.decoder Z).drain r src).1.closeSent = verdict.ended := by
  rw [(Receiver.decoder Z).drain_of_next hnext, Receiver.drain_of_closing hends.closing, hended]
  exact ⟨by rw [List.append_nil]; exact hends.events, hends.closing, hends.closeSent⟩

/-- A judged byte stream is drained with the events of its judgement. -/
theorem Receiver.Judged.drain {es : List Event} {verdict : Verdict} (hz : Z.Reliable)
    (hjudged : r.Judged src es verdict) (hr : r.Coherent) :
    ((Receiver.decoder Z).drain r src).2.2 = es ++ verdict.events ∧
      ((Receiver.decoder Z).drain r src).1.closing = verdict.ended ∧
      ((Receiver.decoder Z).drain r src).1.closeSent = verdict.ended ∧
      ∀ e ∈ es, e.IsReport := by
  induction hjudged with
  | incompleteHeader hincomplete =>
    rw [(Receiver.decoder Z).drain_of_next_none (Receiver.next_of_incomplete hincomplete)]
    exact ⟨rfl, hr.receiverOpen, hr.notSent, by simp⟩
  | @headerOffence r src h code hparse hoffence =>
    have hnext := Receiver.next_of_refused hr.receiverOpen hparse
      ((Receiver.judgeHeader_eq_some_iff hr).mpr hoffence)
    have hcode : code ≠ 0 ∧ code ≠ 1005 ∧ code ≠ 1006 := by
      cases hoffence <;> decide
    obtain ⟨hevents, hclosing, hsent⟩ :=
      (Receiver.refuse_ends r hcode hr.notSent).drain rfl hnext
    exact ⟨hevents, hclosing, hsent, by simp⟩
  | incompletePayload hparse hvalid hincomplete =>
    rw [(Receiver.decoder Z).drain_of_next_none (Receiver.next_of_part hparse
      ((Receiver.judgeHeader_eq_none_iff hr).mpr hvalid) hincomplete)]
    exact ⟨rfl, hr.receiverOpen, hr.notSent, by simp⟩
  | payloadOffence hframe hoffence hpayload =>
    have hok := (Receiver.judgeHeader_eq_none_iff hr).mpr hoffence
    obtain ⟨-, hrsv, -, -⟩ := Receiver.judgeHeader_eq_none.mp hok
    obtain ⟨hevents, hclosing, hsent⟩ :=
      (hpayload.deliver_ends hz hr hrsv).drain rfl (hframe.next hr.receiverOpen hok)
    exact ⟨hevents, hclosing, hsent, by simp⟩
  | @close r src h payload rest code reason hframe hoffence hclose hpayload =>
    have hok := (Receiver.judgeHeader_eq_none_iff hr).mpr hoffence
    obtain ⟨hvalid, -, -, -⟩ := Receiver.judgeHeader_eq_none.mp hok
    have hshort := hframe.short hvalid (by simp [FrameHeader.isData, hclose])
    obtain ⟨hevents, hclosing, hsent⟩ :=
      (Receiver.deliver_close_ends hr hclose hpayload hshort).drain rfl
        (hframe.next hr.receiverOpen hok)
    exact ⟨hevents, hclosing, hsent, by simp⟩
  | frame hframe hoffence heffect _ ih =>
    have hok := (Receiver.judgeHeader_eq_none_iff hr).mpr hoffence
    obtain ⟨hvalid, hrsv, hsequence, -⟩ := Receiver.judgeHeader_eq_none.mp hok
    obtain ⟨hdelivered, hr'⟩ := heffect.deliver hr hsequence hrsv (hframe.short hvalid)
    obtain ⟨hevents, hclosing, hsent, hreports⟩ := ih hr'
    have hnext := hframe.next hr.receiverOpen hok
    rw [hdelivered] at hnext
    rw [(Receiver.decoder Z).drain_of_next hnext, ← hframe.rest]
    refine ⟨?_, hclosing, hsent, fun e he => ?_⟩
    · rw [hevents, List.append_assoc]
    · rcases List.mem_append.mp he with he | he
      · exact heffect.isReport e he
      · exact hreports e he

end Judgement

/-- **The session accepts exactly the client-frame grammar.** Every byte stream has
a judgement, and a fresh session fed with it in any chunks leaves the events
and the closing state of its judgement. -/
theorem consumeAll_judged {Z : Zlib} (hz : Z.Reliable)
    (negotiatedOptions serverMaxWindowBits maxPayload : ℕ)
    (compressionContext : Option (CompressionContext Z)) (chunks : List Bytes)
    (hchunks : ∀ chunk ∈ chunks, chunk.length < 2 ^ 31) :
    let run := (StreamWebSocket.create negotiatedOptions serverMaxWindowBits maxPayload
      compressionContext).consumeAll chunks
    let fresh := Receiver.create negotiatedOptions maxPayload compressionContext
    (∃ es verdict, fresh.Judged chunks.flatten es verdict) ∧
      ∀ es verdict, fresh.Judged chunks.flatten es verdict →
        run.2 = es ++ verdict.events ∧ run.1.session.closing = verdict.ended ∧
          run.1.session.closeSent = verdict.ended ∧ ∀ e ∈ es, e.IsReport := by
  intro run fresh
  have hcoherent : fresh.Coherent := Receiver.create_coherent _ _ _
  obtain ⟨htracks, hevents⟩ := StreamWebSocket.consumeAll_create negotiatedOptions
    serverMaxWindowBits maxPayload compressionContext chunks hchunks
  refine ⟨fresh.judged_exists hz hcoherent _, fun es verdict hjudged => ?_⟩
  obtain ⟨hdrained, hclosing, hsent, hreports⟩ := hjudged.drain hz hcoherent
  exact ⟨hevents.trans hdrained, htracks.closing.1.trans hclosing,
    htracks.closing.2.trans hsent, hreports⟩

/-- A compressed letter and a frame that is not masked. -/
theorem consumeAll_judged_unmasked :
    let chunks : List Bytes := [[0xc1, 0x83, 0x01, 0x02, 0x03, 0x04, 0x4b], [0x06, 0x03],
      [0x81, 0x01, 0x61, 0x00, 0x00, 0x00]]
    let run := (StreamWebSocket.create (Z := Zlib.sample) PERMESSAGE_DEFLATE 15 16 none).consumeAll
      chunks
    let fresh := Receiver.create (Z := Zlib.sample) PERMESSAGE_DEFLATE 16 none
    (∃ es verdict, fresh.Judged chunks.flatten es verdict) ∧
      ∀ es verdict, fresh.Judged chunks.flatten es verdict →
        run.2 = es ++ verdict.events ∧ run.1.session.closing = verdict.ended ∧
          run.1.session.closeSent = verdict.ended ∧ ∀ e ∈ es, e.IsReport :=
  consumeAll_judged Zlib.sample_reliable PERMESSAGE_DEFLATE 15 16 none _ (by decide)

end Eiows
