import Eiows.Receiver.Handling

/-!
# The parser refines the receiver

Between chunks the parser holds either an incomplete header or a frame whose
payload is incomplete. Both are one relation to a receiver with the unread
bytes, and every chunk carries it on as the receiver drains its buffer.
-/

namespace Eiows

variable {Z : Zlib}

/-- The parser reads the fields of the header `h` from the front of `src`. -/
structure FrameHeader.At (h : FrameHeader) (src : Bytes) : Prop where
  complete : ¬(src.length < shortMessageHeader ∨ src.length < headerLengthOf (payloadLength src))
  fin : isFin src = h.fin
  rsv1 : Eiows.rsv1 src = h.rsv1
  rsv23 : Eiows.rsv23 src = h.rsv23
  nibble : getOpCode src = h.nibble
  masked : isMasked src = h.masked
  marker : payloadLength src = h.marker
  length : announcedLength src = h.length
  key : readMask src (headerLengthOf (payloadLength src) - 4) = h.key

/-- A header that is not complete is not read. -/
theorem short_of_parseHeader {src : Bytes} (hparse : parseHeader src = none) :
    src.length < shortMessageHeader ∨ src.length < headerLengthOf (payloadLength src) := by
  unfold parseHeader at hparse
  split_ifs at hparse with hfirst hsecond
  · exact .inl hfirst
  · exact .inr hsecond

theorem parseHeader_at {src : Bytes} {h : FrameHeader} (hparse : parseHeader src = some h) :
    h.At src := by
  unfold parseHeader at hparse
  split_ifs at hparse with hshort hlength
  cases hparse
  exact ⟨not_or.mpr ⟨hshort, hlength⟩, rfl, rfl, rfl, rfl, rfl, rfl, rfl, rfl⟩

/-- The header checks of `parseNext` besides the one for compression. -/
theorem FrameHeader.At.malformed {h : FrameHeader} {src : Bytes} (hat : h.At src) :
    (badHeader src || badExtendedLength src) = h.malformed := by
  have hextended : badExtendedLength src = ((h.marker == 126 && decide (h.length < 126)) ||
      (h.marker == 127 && (decide (2 ^ 63 ≤ h.length) || decide (h.length ≤ 65535)))) := by
    have hlt := payloadLength_lt src
    have hlength := hat.length
    unfold announcedLength at hlength
    unfold badExtendedLength
    rw [← hat.marker]
    split_ifs at hlength ⊢ with hsmall hmedium
    · rw [beq_eq_false_iff_ne.mpr (by omega), beq_eq_false_iff_ne.mpr (by omega)]
      rfl
    · rw [hlength, hmedium]
      simp
    · rw [hlength, beq_eq_false_iff_ne.mpr (by omega), beq_iff_eq.mpr (by omega)]
      simp
  rw [hextended]
  simp only [badHeader, FrameHeader.malformed, hat.masked, hat.rsv23, hat.nibble, hat.fin,
    hat.marker, Bool.or_assoc]

/-- The parser between frames. -/
structure WebSocketState.Rests (w : WebSocketState) (r : Receiver Z) : Prop where
  fragmentedMessage : w.fragmentedMessage = r.message.isSome
  opStack : w.opStack = if r.message.isSome then 0 else -1
  opCode : ∀ c, r.message = some c → w.opCode[0] = c

/-- The parser inside the frame `h`. The opcode of a message in progress stays
below that of an interleaved control frame. -/
structure WebSocketState.Inside (w : WebSocketState) (r : Receiver Z) (h : FrameHeader) :
    Prop where
  fragmentedMessage : w.fragmentedMessage = if h.isData then !h.fin else r.message.isSome
  opStack : w.opStack = if h.isData || r.message.isNone then 0 else 1
  current : w.currentOpCode = r.frameOpCode h
  below : h.isData = false → ∀ c, r.message = some c → w.opCode[0] = c
  lastFin : w.lastFin = h.fin

/-- A pushed opcode is the current one, on an empty stack or above a message. -/
theorem WebSocketState.currentOpCode_pushOpCode {w : WebSocketState} (opCode : OpCode)
    (hstack : w.opStack = -1 ∨ w.opStack = 0) :
    (w.pushOpCode opCode).currentOpCode = opCode := by
  rcases hstack with hstack | hstack <;>
    simp [currentOpCode, pushOpCode, hstack, Vector.getD]

theorem enterFrame_continuation {w : WebSocketState} (fin : Bool)
    (hfragmented : w.fragmentedMessage = true) (hstack : w.opStack = 0) :
    enterFrame .none fin w = .ok { w with fragmentedMessage := !fin, lastFin := fin } := by
  cases fin <;> simp [enterFrame, hfragmented, hstack]

theorem enterFrame_message {w : WebSocketState} {opCode : OpCode} (fin : Bool)
    (hopCode : opCode = .text ∨ opCode = .binary) (hfragmented : w.fragmentedMessage = false)
    (hstack : w.opStack = -1) :
    enterFrame opCode fin w =
      .ok { w.pushOpCode opCode with fragmentedMessage := !fin, lastFin := fin } := by
  rcases hopCode with rfl | rfl <;>
    simp [enterFrame, hfragmented, hstack, WebSocketState.pushOpCode]

theorem enterFrame_control {w : WebSocketState} {opCode : OpCode} (fin : Bool)
    (hopCode : 3 ≤ opCode.value) (hstack : w.opStack ≠ 1) :
    enterFrame opCode fin w = .ok { w.pushOpCode opCode with lastFin := fin } := by
  cases opCode <;> simp_all [enterFrame, OpCode.value]

/-- A frame in sequence is entered. -/
theorem enterFrame_ok {w : WebSocketState} {r : Receiver Z} {h : FrameHeader} (hw : w.Rests r)
    (hvalid : h.malformed = false) (hsequence : r.outOfSequence h = false) :
    ∃ w', enterFrame h.opCode h.fin w = .ok w' ∧ w'.Inside r h ∧ w'.wantsHead = w.wantsHead := by
  have hfragmented := hw.fragmentedMessage
  have hstack := hw.opStack
  by_cases hdata : h.isData = true
  · by_cases hzero : h.nibble = 0
    · obtain ⟨c, hmessage⟩ : ∃ c, r.message = some c := by
        rw [← Option.isSome_iff_exists]
        simpa [Receiver.outOfSequence, hzero] using hsequence
      have hopCode : h.opCode = .none := by rw [FrameHeader.opCode, hzero]; rfl
      simp only [hmessage, Option.isSome_some, if_true] at hfragmented hstack
      rw [hopCode]
      refine ⟨_, enterFrame_continuation h.fin hfragmented hstack, ⟨?_, ?_, ?_, ?_, rfl⟩, rfl⟩
      · simp [hdata]
      · simp [hdata, hstack]
      · simp [WebSocketState.currentOpCode, hstack, Receiver.frameOpCode, hdata,
          Receiver.messageOpCode, hzero, hmessage, hw.opCode c hmessage, Vector.getD]
      · simp [hdata]
    · have hmessage : r.message = none := by
        simpa [Receiver.outOfSequence, hzero, hdata] using hsequence
      have hopCode := FrameHeader.opCode_of_isData hdata hzero
      simp only [hmessage, Option.isSome_none, Bool.false_eq_true, if_false] at hfragmented hstack
      refine ⟨_, enterFrame_message h.fin hopCode hfragmented hstack,
        ⟨?_, ?_, ?_, ?_, rfl⟩, rfl⟩
      · simp [hdata]
      · simp [WebSocketState.pushOpCode, hdata, hstack]
      · simp only [Receiver.frameOpCode, hdata, if_true, Receiver.messageOpCode, if_neg hzero]
        exact w.currentOpCode_pushOpCode h.opCode (.inl hstack)
      · simp [hdata]
  · have hcontrol : h.isData = false := by simpa using hdata
    obtain ⟨-, -, hopCode⟩ := FrameHeader.control_of_not_malformed hvalid hcontrol
    have hbelow : w.opStack = -1 ∨ w.opStack = 0 := by
      rw [hstack]
      split_ifs <;> simp
    refine ⟨_, enterFrame_control h.fin hopCode (by omega), ⟨?_, ?_, ?_, fun _ c hc => ?_, rfl⟩,
      rfl⟩
    · simp [WebSocketState.pushOpCode, hcontrol, hfragmented]
    · cases hmessage : r.message <;>
        simp [WebSocketState.pushOpCode, hcontrol, hstack, hmessage]
    · simp only [Receiver.frameOpCode, hcontrol, Bool.false_eq_true, if_false]
      exact w.currentOpCode_pushOpCode h.opCode hbelow
    · simp [WebSocketState.pushOpCode, hstack, hc, hw.opCode c hc]

/-- A frame out of sequence is an error. -/
theorem enterFrame_error {w : WebSocketState} {r : Receiver Z} {h : FrameHeader} (hw : w.Rests r)
    (hsequence : r.outOfSequence h = true) :
    ∃ w', enterFrame h.opCode h.fin w = .error w' := by
  have hfragmented := hw.fragmentedMessage
  simp only [Receiver.outOfSequence, Bool.or_eq_true, Bool.and_eq_true, bne_iff_ne,
    beq_iff_eq] at hsequence
  rcases hsequence with ⟨⟨hdata, hnonzero⟩, hmessage⟩ | ⟨hzero, hmessage⟩
  · have hopCode := FrameHeader.opCode_of_isData hdata hnonzero
    exact ⟨w, by rw [enterFrame, if_pos ⟨hopCode, hfragmented.trans hmessage⟩]⟩
  · have hopCode : h.opCode = .none := by rw [FrameHeader.opCode, hzero]; rfl
    have hunfragmented : w.fragmentedMessage = false := by
      simpa [hfragmented] using hmessage
    exact ⟨w, by simp [enterFrame, hopCode, hunfragmented]⟩

/-- Leaving a frame restores the stack for the receiver after it. -/
theorem WebSocketState.Inside.leave {w w' : WebSocketState} {r : Receiver Z} {h : FrameHeader}
    (hw : w.Inside r h) (hvalid : h.malformed = false) (payload : Bytes) (hfragmented : w'.fragmentedMessage = w.fragmentedMessage)
    (hstack : w'.opStack = if h.fin then w.opStack - 1 else w.opStack)
    (hopCode : w'.opCode = w.opCode) : w'.Rests (r.deliver h payload).1 := by
  have hentered := hw.opStack
  have hcurrent := hw.current
  by_cases hdata : h.isData = true
  · simp only [hdata, Bool.true_or, if_true] at hentered
    refine ⟨?_, ?_, fun c hc => ?_⟩
    · rw [hfragmented, hw.fragmentedMessage, Receiver.deliver_message]
      cases hfin : h.fin <;> simp [hdata]
    · rw [hstack, hentered, Receiver.deliver_message]
      cases hfin : h.fin <;> simp [hdata]
    · rw [Receiver.deliver_message, if_pos hdata] at hc
      split_ifs at hc with hfin
      cases hc
      rw [hopCode]
      simpa [currentOpCode, hentered, Receiver.frameOpCode, hdata, Vector.getD] using hcurrent
  · have hcontrol : h.isData = false := by simpa using hdata
    obtain ⟨hfin, -, -⟩ := FrameHeader.control_of_not_malformed hvalid hcontrol
    have hmessage : (r.deliver h payload).1.message = r.message := by
      rw [Receiver.deliver_message, if_neg hdata]
    refine ⟨?_, ?_, fun c hc => ?_⟩
    · rw [hfragmented, hw.fragmentedMessage, hmessage, if_neg hdata]
    · rw [hstack, hfin, hentered, hmessage]
      cases r.message <;> simp [hcontrol]
    · rw [hmessage] at hc
      rw [hopCode]
      exact hw.below hcontrol c hc

/-- The parser and its session read for an open receiver with the unread bytes
`pending`: an incomplete header, or a frame with an incomplete payload. -/
inductive Reads (w : WebSocketState) (s : Session Z) (r : Receiver Z) (pending : Bytes) : Prop
  | header (wantsHead : w.wantsHead = true) (spill : w.spill = pending)
      (incomplete : parseHeader pending = none) (parser : w.Rests r) (session : s.Rests r)
      (wellFormed : r.WellFormed)
  | payload (h : FrameHeader) (wantsHead : w.wantsHead = false) (spill : w.spill = [])
      (parsed : parseHeader pending = some h) (accepted : r.judgeHeader h = none)
      (part : Bytes) (rest : part = pending.drop h.size) (proper : part.length < h.length)
      (remainingBytes : w.remainingBytes = h.length - part.length)
      (mask : w.mask = rotateMask (4 - part.length % 4) h.key) (parser : w.Inside r h)
      (session : s.Holds r h (keystream h.key 0 part)) (wellFormed : r.WellFormed)

/-- A parser that has read some input, compared with a drained receiver. -/
structure Parses (before : List Event) (out : WebSocketState × Session Z)
    (drained : Receiver Z × Bytes × List Event) : Prop where
  events : out.2.events = before ++ drained.2.2
  state : out.2.Ended drained.1 ∨ Reads out.1 out.2 drained.1 drained.2.1

/-- The hook for compressed frames is asked only where it decides. -/
theorem checkCompressed_spec {s : Session Z} {r : Receiver Z} {h : FrameHeader} {src : Bytes}
    (hat : h.At src) (hcompression : s.compressionStatus = r.compression) :
    ∃ status, checkCompressed protocolHooks src s =
        (r.badCompression h, { s with compressionStatus := status }) ∧
      (r.badCompression h = false → status = r.compressionIn h) := by
  unfold checkCompressed Receiver.badCompression Receiver.compressionIn
  rw [hat.rsv1, hat.nibble, ← hcompression]
  cases hrsv : h.rsv1 with
  | false => exact ⟨s.compressionStatus, by simp, by simp⟩
  | true =>
    by_cases hplace : h.nibble = 0 ∨ 2 < h.nibble
    · have hbad : (h.nibble == 0 || !h.isData) = true := by
        rcases hplace with hzero | hlarge
        · simp [hzero]
        · simp [FrameHeader.isData, hlarge]
      refine ⟨s.compressionStatus, ?_, fun hfalse => ?_⟩
      · simp only [if_true, if_pos hplace, hbad, Bool.true_or, Bool.true_and]
      · simp [hbad] at hfalse
    · have hbad : (h.nibble == 0 || !h.isData) = false := by
        simp only [FrameHeader.isData, Bool.or_eq_false_iff, beq_eq_false_iff_ne,
          Bool.not_eq_false', decide_eq_true_eq]
        omega
      simp only [if_true, if_neg hplace, hbad, Bool.false_or, Bool.true_and, protocolHooks,
        Session.setCompressed]
      by_cases henabled : s.compressionStatus = .enabled
      · exact ⟨.compressedFrame, by simp [henabled], by simp⟩
      · exact ⟨s.compressionStatus, by simp [henabled], by simp [henabled]⟩

/-- The frame-level payload limit. -/
theorem refuseFrame_spec {s : Session Z} {r : Receiver Z} {h : FrameHeader}
    (hvalid : h.malformed = false) (hpayload : s.maxPayload = r.maxPayload) :
    refuseFrame protocolHooks h.opCode h.length s =
      if h.isData = true ∧ payloadLimit r.maxPayload < h.length then
        (true, { s with failureCode := 1009 })
      else (false, s) := by
  unfold refuseFrame
  rw [FrameHeader.opCode_value hvalid]
  simp only [FrameHeader.isData, decide_eq_true_eq, protocolHooks, Session.refusePayloadLength,
    payloadLimit_lt, hpayload]
  by_cases hdata : h.nibble ≤ 2
  · simp only [hdata, if_true, true_and]
  · simp only [hdata, if_false, false_and]

section Message

variable {w : WebSocketState} {s : Session Z} {r : Receiver Z} {h : FrameHeader} {src : Bytes}

/-- A frame out of sequence fails with the default code. -/
theorem consumeMessage_outOfSequence (hat : h.At src) (hw : w.Rests r)
    (hsequence : r.outOfSequence h = true) :
    ∃ w', consumeMessage protocolHooks h.length h.size src w s = .stop w' s.forceClose := by
  obtain ⟨w', hentered⟩ := enterFrame_error hw hsequence
  refine ⟨w', ?_⟩
  rw [consumeMessage, hat.nibble, hat.fin, ← FrameHeader.opCode, hentered]
  rfl

/-- What follows once the frame is entered. -/
theorem consumeMessage_entered (hat : h.At src) {w₁ : WebSocketState}
    (hentered : enterFrame h.opCode h.fin w = .ok w₁) :
    consumeMessage protocolHooks h.length h.size src w s =
      if (refuseFrame protocolHooks h.opCode h.length s).1 then
        .stop w₁ (refuseFrame protocolHooks h.opCode h.length s).2.forceClose
      else if h.length + h.size ≤ src.length then
        consumeWhole protocolHooks h.length h.size src w₁
          (refuseFrame protocolHooks h.opCode h.length s).2
      else
        consumePart protocolHooks h.length h.size src w₁
          (refuseFrame protocolHooks h.opCode h.length s).2 := by
  rw [consumeMessage, hat.nibble, hat.fin, ← FrameHeader.opCode, hentered]
  rfl

theorem FrameHeader.At.readMask_eq (hat : h.At src) : readMask src (h.size - 4) = h.key := by
  rw [FrameHeader.size, ← hat.marker]
  exact hat.key

theorem consumeWhole_eq (hat : h.At src) :
    consumeWhole protocolHooks h.length h.size src w s =
      let handled := s.handleFragment (keystream h.key 0 ((src.drop h.size).take h.length)) 0
        w.currentOpCode h.fin
      if handled.1 then .stop w handled.2
      else
        .next (src.drop (h.length + h.size))
          { w with opStack := if h.fin then w.opStack - 1 else w.opStack, spill := [] }
          handled.2 := by
  rw [consumeWhole, hat.fin, hat.readMask_eq, unmaskImprecise_eq_keystream]
  rfl

theorem consumePart_eq (hat : h.At src) (hproper : src.length < h.length + h.size)
    (hsize : h.length ≤ unsignedMax) :
    consumePart protocolHooks h.length h.size src w s =
      .stop { w with
          spill := []
          wantsHead := false
          remainingBytes := h.length - (src.drop h.size).length
          mask := rotateMask (4 - (src.drop h.size).length % 4) h.key }
        (s.handleFragment (keystream h.key 0 (src.drop h.size))
          (h.length - (src.drop h.size).length) w.currentOpCode h.fin).2 := by
  have hheader : h.size ≤ src.length := by
    rw [FrameHeader.size, ← hat.marker]
    exact Nat.le_of_not_lt (not_or.mp hat.complete).2
  have hremaining : (h.length + h.size - src.length) % 2 ^ 32 =
      h.length - (src.drop h.size).length := by
    unfold unsignedMax at hsize
    rw [List.length_drop, Nat.mod_eq_of_lt (by omega)]
    omega
  rw [consumePart, hat.fin, hat.readMask_eq, unmaskImprecise_eq_keystream, hremaining,
    List.length_drop]
  rfl

/-- The whole or partial payload of a data message that is too long fails. -/
theorem consumeMessage_tooLong (hat : h.At src) (hw : w.Rests r) (hr : r.WellFormed)
    (hs : s.Holds r h []) (hvalid : h.malformed = false) (hsequence : r.outOfSequence h = false)
    (hlong : r.tooLong h = true) :
    ∃ w' s', consumeMessage protocolHooks h.length h.size src w s = .stop w' s' ∧
      s'.Ended (r.refuse 1009).1 ∧ s'.events = s.events ++ (r.refuse 1009).2 := by
  obtain ⟨w₁, hentered, hinside, -⟩ := enterFrame_ok hw hvalid hsequence
  have hdata : h.isData = true := by
    simp only [Receiver.tooLong, Bool.and_eq_true] at hlong
    exact hlong.1
  rw [consumeMessage_entered hat hentered, refuseFrame_spec hvalid hs.maxPayload]
  by_cases hframe : payloadLimit r.maxPayload < h.length
  · obtain ⟨hended, hevents⟩ := Session.fail_ended (s := { s with failureCode := 1009 }) (r := r)
      1009 hs.sessionOpen hs.closeSent
    simp only [if_pos (And.intro hdata hframe), if_true]
    exact ⟨w₁, _, rfl, hended, hevents⟩
  · have hopCode := hr.messageOpCode_value_lt hdata hsequence
    have hcurrent : w₁.currentOpCode = r.messageOpCode h := by
      rw [hinside.current, Receiver.frameOpCode, if_pos hdata]
    have hfails : ∀ (data : Bytes) (remainingBytes : ℕ),
        data.length + remainingBytes = h.length →
        Session.Outcome (fun _ _ => False) s.events
          (s.handleFragment data remainingBytes (r.messageOpCode h) h.fin) (r.refuse 1009) :=
      fun data remainingBytes hlength => Session.handleFragment_tooLong h.fin hs hdata hopCode
        (Nat.not_lt.mp hframe) hlong hlength
    have hsize : h.length ≤ unsignedMax := by
      have hlimit := payloadLimit_lt.not.mp hframe
      omega
    simp only [hdata, hframe, and_false, if_false, Bool.false_eq_true]
    split_ifs with hwhole
    · have hfails := hfails (keystream h.key 0 ((src.drop h.size).take h.length)) 0 (by
        simp only [keystream_length, List.length_take, List.length_drop]
        omega)
      rw [consumeWhole_eq hat, hcurrent]
      simp only [show _ = true from hfails.stops, if_true]
      exact ⟨w₁, _, rfl, hfails.ends rfl, hfails.events⟩
    · have hfails := hfails (keystream h.key 0 (src.drop h.size))
        (h.length - (src.drop h.size).length) (by
          simp only [keystream_length, List.length_drop]
          omega)
      rw [consumePart_eq hat (by omega) hsize, hcurrent]
      exact ⟨_, _, rfl, hfails.ends rfl, hfails.events⟩

/-- An accepted frame passes the frame-level checks. -/
theorem refuseFrame_accepted (hs : s.Holds r h []) (hok : r.judgeHeader h = none) :
    refuseFrame protocolHooks h.opCode h.length s = (false, s) := by
  obtain ⟨hvalid, -, -, hlimit⟩ := Receiver.judgeHeader_eq_none.mp hok
  rw [refuseFrame_spec hvalid hs.maxPayload, if_neg]
  rintro ⟨hdata, hframe⟩
  simp only [Receiver.tooLong, hdata, Bool.true_and, decide_eq_false_iff_not] at hlimit
  omega

/-- The payload length of an accepted frame is a 32-bit value. -/
theorem length_le_of_accepted (hok : r.judgeHeader h = none)
    (hmarker : h.marker < 126 → h.length = h.marker) : h.length ≤ unsignedMax := by
  obtain ⟨hvalid, -, -, hlimit⟩ := Receiver.judgeHeader_eq_none.mp hok
  by_cases hdata : h.isData = true
  · simp only [Receiver.tooLong, hdata, Bool.true_and, decide_eq_false_iff_not,
      payloadLimit_lt] at hlimit
    omega
  · obtain ⟨-, hshort, -⟩ :=
      FrameHeader.control_of_not_malformed hvalid (by simpa using hdata)
    have hlength := hmarker (by omega)
    unfold unsignedMax
    omega

/-- What a delivered frame leaves: the end of both, or the parser between frames. -/
structure Delivered (before : List Event) (wantsHead : Bool) (w : WebSocketState) (s : Session Z)
    (delivered : Receiver Z × List Event) : Prop where
  events : s.events = before ++ delivered.2
  wantsHead : w.wantsHead = wantsHead
  spill : w.spill = []
  parser : w.Rests delivered.1
  session : s.Rests delivered.1
  wellFormed : delivered.1.WellFormed

/-- An accepted frame with its whole payload is delivered. -/
theorem consumeMessage_whole (hparse : parseHeader src = some h) (hw : w.Rests r)
    (hr : r.WellFormed) (hs : s.Holds r h []) (hok : r.judgeHeader h = none)
    (hwhole : h.size + h.length ≤ src.length) {delivered : Receiver Z × List Event}
    (hdelivered : delivered =
      r.deliver h (keystream h.key 0 ((src.drop h.size).take h.length))) :
    (∃ w' s', consumeMessage protocolHooks h.length h.size src w s = .stop w' s' ∧
        s'.Ended delivered.1 ∧ s'.events = s.events ++ delivered.2) ∨
      ∃ w' s', consumeMessage protocolHooks h.length h.size src w s =
          .next (src.drop (h.size + h.length)) w' s' ∧
        Delivered s.events w.wantsHead w' s' delivered := by
  obtain ⟨hvalid, -, hsequence, -⟩ := Receiver.judgeHeader_eq_none.mp hok
  obtain ⟨w₁, hentered, hinside, hwants⟩ := enterFrame_ok hw hvalid hsequence
  have hat := parseHeader_at hparse
  have houtcome : Session.Outcome Session.Rests s.events
      (s.handleFragment (keystream h.key 0 ((src.drop h.size).take h.length)) 0
        (r.frameOpCode h) h.fin) delivered := by
    rw [hdelivered]
    refine Session.handleFragment_last hs hr hok (parseHeader_length hparse) ?_
    simp only [keystream_length, List.length_take, List.length_drop, List.length_nil]
    omega
  rw [consumeMessage_entered hat hentered, refuseFrame_accepted hs hok, if_neg (by simp),
    if_pos (by omega), consumeWhole_eq hat, hinside.current, Nat.add_comm h.length]
  cases hclosing : delivered.1.closing with
  | true =>
    left
    simp only [show _ = true from houtcome.stops.trans hclosing, if_true]
    exact ⟨_, _, rfl, houtcome.ends hclosing, houtcome.events⟩
  | false =>
    right
    simp only [show _ = false from houtcome.stops.trans hclosing, Bool.false_eq_true, if_false]
    refine ⟨_, _, rfl, houtcome.events, hwants, rfl, ?_, houtcome.remains hclosing, ?_⟩
    · rw [hdelivered]
      exact hinside.leave hvalid _ rfl rfl rfl
    · rw [hdelivered]
      exact hr.deliver hsequence _

/-- An accepted frame with an incomplete payload is awaited. -/
theorem consumeMessage_part (hparse : parseHeader src = some h) (hw : w.Rests r)
    (hr : r.WellFormed) (hs : s.Holds r h []) (hok : r.judgeHeader h = none)
    (hproper : src.length < h.size + h.length) :
    ∃ w' s', consumeMessage protocolHooks h.length h.size src w s = .stop w' s' ∧
      s'.events = s.events ∧ Reads w' s' r src := by
  obtain ⟨hvalid, -, hsequence, -⟩ := Receiver.judgeHeader_eq_none.mp hok
  obtain ⟨w₁, hentered, hinside, -⟩ := enterFrame_ok hw hvalid hsequence
  have hat := parseHeader_at hparse
  have hmarker := parseHeader_length hparse
  have hheader := parseHeader_size_le hparse
  have hpart : (src.drop h.size).length < h.length := by
    rw [List.length_drop]
    omega
  obtain ⟨s', hhandled, hevents, hholds⟩ := Session.handleFragment_part
    (keystream h.key 0 (src.drop h.size)) (h.length - (src.drop h.size).length) hs hr hok hmarker
    (Nat.sub_pos_of_lt hpart) (by
      rw [keystream_length, List.length_nil]
      omega)
  rw [consumeMessage_entered hat hentered, refuseFrame_accepted hs hok, if_neg (by simp),
    if_neg (by omega), consumePart_eq hat (by omega) (length_le_of_accepted hok hmarker),
    hinside.current, hhandled]
  exact ⟨_, _, rfl, hevents, .payload h rfl rfl hparse hok _ rfl hpart rfl rfl
    ⟨hinside.fragmentedMessage, hinside.opStack, hinside.current, hinside.below, hinside.lastFin⟩
    hholds hr⟩

end Message

section Loop

variable {w : WebSocketState} {s : Session Z} {r : Receiver Z} {src : Bytes}

theorem parseNext_incomplete (hparse : parseHeader src = none) :
    parseNext protocolHooks src w s = if src = [] then (w, s) else ({ w with spill := src }, s) :=
  parseNext_of_incomplete protocolHooks (short_of_parseHeader hparse)

/-- One iteration of the loop on a complete header. -/
theorem parseNext_header {h : FrameHeader} (hparse : parseHeader src = some h)
    (hcompression : s.compressionStatus = r.compression) :
    ∃ status, (r.badCompression h = false → status = r.compressionIn h) ∧
      parseNext protocolHooks src w s =
        if r.badCompression h || h.malformed then
          (w, Session.forceClose { s with compressionStatus := status })
        else
          (consumeMessage protocolHooks h.length h.size src w
            { s with compressionStatus := status }).resume protocolHooks := by
  have hat := parseHeader_at hparse
  obtain ⟨status, hchecked, hstatus⟩ := checkCompressed_spec (r := r) hat hcompression
  refine ⟨status, hstatus, ?_⟩
  have hsame : headerLengthOf (payloadLength src) = h.size := by rw [hat.marker]; rfl
  rw [parseNext_of_complete protocolHooks hat.complete, hchecked, ← hat.malformed,
    ← Bool.or_assoc, hsame, hat.length, protocolHooks_forceClose]

/-- A refused unit ends a drained receiver. -/
theorem Parses.refused {before : List Event} {out : WebSocketState × Session Z}
    {delivered : Receiver Z × List Event} {n : ℕ}
    (hnext : (Receiver.decoder Z).next r src = some (delivered.1, delivered.2, n))
    (hevents : out.2.events = before ++ delivered.2) (hended : out.2.Ended delivered.1) :
    Parses before out ((Receiver.decoder Z).drain r src) := by
  rw [(Receiver.decoder Z).drain_of_next hnext, Receiver.drain_of_closing hended.receiver]
  exact ⟨by simpa using hevents, .inl hended⟩

/-- Reading goes on after a unit. -/
theorem Parses.cons {before : List Event} {out : WebSocketState × Session Z} {r' : Receiver Z}
    {es : List Event} {n : ℕ} (hnext : (Receiver.decoder Z).next r src = some (r', es, n))
    (hrest : Parses (before ++ es) out ((Receiver.decoder Z).drain r' (src.drop n))) :
    Parses before out ((Receiver.decoder Z).drain r src) := by
  rw [(Receiver.decoder Z).drain_of_next hnext]
  exact ⟨by simpa using hrest.events, hrest.state⟩

end Loop

/-- The loop reads a buffer as the receiver drains it. -/
theorem parseNext_parses {w : WebSocketState} {s : Session Z} {r : Receiver Z} (src : Bytes)
    (hwants : w.wantsHead = true) (hempty : src = [] → w.spill = [])
    (hw : w.Rests r) (hs : s.Rests r) (hr : r.WellFormed) :
    Parses s.events (parseNext protocolHooks src w s) ((Receiver.decoder Z).drain r src) := by
  cases hparse : parseHeader src with
  | none =>
    rw [(Receiver.decoder Z).drain_of_next_none (Receiver.next_of_incomplete hparse),
      parseNext_incomplete hparse]
    split_ifs with hsrc
    · exact ⟨by simp, .inr (.header hwants ((hempty hsrc).trans hsrc.symm) hparse hw hs hr)⟩
    · exact ⟨by simp, .inr (.header hwants rfl hparse
        ⟨hw.fragmentedMessage, hw.opStack, hw.opCode⟩ hs hr)⟩
  | some h =>
    have hat := parseHeader_at hparse
    obtain ⟨status, hstatus, hstep⟩ := parseNext_header (w := w) hparse hs.compression
    rw [hstep]
    by_cases hbad : r.badCompression h || h.malformed
    · have hjudge : r.judgeHeader h = some 1002 := by
        simp only [Receiver.judgeHeader]
        rw [if_pos (by rw [Bool.or_comm h.malformed, hbad]; rfl)]
      obtain ⟨hended, hevents⟩ := Session.forceClose_ended
        (s := { s with compressionStatus := status }) hs.failureCode hs.sessionOpen hs.closeSent
      rw [if_pos hbad]
      exact .refused (Receiver.next_of_refused hs.receiverOpen hparse hjudge) hevents hended
    · obtain ⟨hcompression, hvalid⟩ : r.badCompression h = false ∧ h.malformed = false := by
        simpa using hbad
      have hholds := hs.holds (hstatus hcompression)
      rw [if_neg hbad]
      by_cases hsequence : r.outOfSequence h = true
      · have hjudge : r.judgeHeader h = some 1002 := by
          simp only [Receiver.judgeHeader]
          rw [if_pos (by rw [hsequence, Bool.or_true])]
        obtain ⟨w', hconsumed⟩ := consumeMessage_outOfSequence
          (s := { s with compressionStatus := status }) hat hw hsequence
        obtain ⟨hended, hevents⟩ := Session.forceClose_ended
          (s := { s with compressionStatus := status }) hs.failureCode hs.sessionOpen hs.closeSent
        rw [hconsumed]
        exact .refused (Receiver.next_of_refused hs.receiverOpen hparse hjudge) hevents hended
      have hsequence : r.outOfSequence h = false := by simpa using hsequence
      by_cases hlong : r.tooLong h = true
      · have hjudge : r.judgeHeader h = some 1009 := by
          simp [Receiver.judgeHeader, hvalid, hcompression, hsequence, hlong]
        obtain ⟨w', s', hconsumed, hended, hevents⟩ :=
          consumeMessage_tooLong hat hw hr hholds hvalid hsequence hlong
        rw [hconsumed]
        exact .refused (Receiver.next_of_refused hs.receiverOpen hparse hjudge) hevents hended
      have hok : r.judgeHeader h = none := Receiver.judgeHeader_eq_none.mpr
        ⟨hvalid, hcompression, hsequence, by simpa using hlong⟩
      by_cases hwhole : h.size + h.length ≤ src.length
      · have hnext := Receiver.next_of_whole hs.receiverOpen hparse hok hwhole
        rcases consumeMessage_whole hparse hw hr hholds hok hwhole rfl with
          ⟨w', s', hconsumed, hended, hevents⟩ | ⟨w', s', hconsumed, hdelivered⟩
        · rw [hconsumed]
          exact .refused hnext hevents hended
        · have hrest := parseNext_parses (src.drop (h.size + h.length))
            (hdelivered.wantsHead.trans hwants) (fun _ => hdelivered.spill) hdelivered.parser
            hdelivered.session hdelivered.wellFormed
          rw [hdelivered.events] at hrest
          rw [hconsumed]
          exact .cons hnext hrest
      · have hproper : src.length < h.size + h.length := by omega
        obtain ⟨w', s', hconsumed, hevents, hreads⟩ :=
          consumeMessage_part hparse hw hr hholds hok hproper
        rw [hconsumed,
          (Receiver.decoder Z).drain_of_next_none (Receiver.next_of_part hparse hok hproper)]
        exact ⟨hevents.trans (List.append_nil _).symm, .inr hreads⟩
  termination_by src.length
  decreasing_by
    have hpos := h.size_pos
    simp only [List.length_drop]
    omega

section Chunk

variable {w : WebSocketState} {s : Session Z} {r : Receiver Z} {h : FrameHeader}
  {pending part src : Bytes}

private theorem drop_pending_append (hparse : parseHeader pending = some h)
    (hrest : part = pending.drop h.size) : (pending ++ src).drop h.size = part ++ src := by
  rw [List.drop_append_of_le_length (parseHeader_size_le hparse), hrest]

private theorem pending_length (hparse : parseHeader pending = some h)
    (hrest : part = pending.drop h.size) : pending.length = h.size + part.length := by
  have hheader := parseHeader_size_le hparse
  rw [hrest, List.length_drop]
  omega

/-- The last part of an awaited payload completes its frame, whatever it is unmasked to. -/
theorem consumeContinuation_delivers (hparse : parseHeader pending = some h)
    (hproper : part.length < h.length) (hremaining : w.remainingBytes = h.length - part.length)
    (hspill : w.spill = []) (hw : w.Inside r h) (hs : s.Holds r h (keystream h.key 0 part))
    (hr : r.WellFormed) (hok : r.judgeHeader h = none) (hlast : w.remainingBytes ≤ src.length)
    {delivered : Receiver Z × List Event}
    (hdelivered : delivered = r.deliver h
      (keystream h.key 0 part ++ unmaskFinal (src.take w.remainingBytes) w.mask)) :
    (∃ w' s', consumeContinuation protocolHooks src w s = .stop w' s' ∧
        s'.Ended delivered.1 ∧ s'.events = s.events ++ delivered.2) ∨
      ∃ w' s', consumeContinuation protocolHooks src w s =
          .next (src.drop w.remainingBytes) w' s' ∧
        Delivered s.events true w' s' delivered := by
  obtain ⟨hvalid, -, hsequence, -⟩ := Receiver.judgeHeader_eq_none.mp hok
  have houtcome : Session.Outcome Session.Rests s.events
      (s.handleFragment (unmaskFinal (src.take w.remainingBytes) w.mask) 0
        (r.frameOpCode h) h.fin) delivered := by
    rw [hdelivered]
    refine Session.handleFragment_last hs hr hok (parseHeader_length hparse) ?_
    rw [keystream_length, unmaskFinal_length, List.length_take]
    omega
  rw [consumeContinuation, if_pos hlast, hw.current, hw.lastFin]
  cases hclosing : delivered.1.closing with
  | true =>
    left
    simp only [protocolHooks, show _ = true from houtcome.stops.trans hclosing, if_true]
    exact ⟨_, _, rfl, houtcome.ends hclosing, houtcome.events⟩
  | false =>
    right
    simp only [protocolHooks, show _ = false from houtcome.stops.trans hclosing,
      Bool.false_eq_true, if_false]
    refine ⟨_, _, rfl, houtcome.events, rfl, hspill, ?_, houtcome.remains hclosing, ?_⟩
    · rw [hdelivered]
      exact hw.leave hvalid _ rfl rfl rfl
    · rw [hdelivered]
      exact hr.deliver hsequence _

/-- Where fewer than `2 ^ 31` bytes were awaited, the frame is that of the receiver. -/
theorem consumeContinuation_last (hparse : parseHeader pending = some h)
    (hrest : part = pending.drop h.size) (hproper : part.length < h.length)
    (hremaining : w.remainingBytes = h.length - part.length)
    (hmask : w.mask = rotateMask (4 - part.length % 4) h.key) (hspill : w.spill = [])
    (hw : w.Inside r h) (hs : s.Holds r h (keystream h.key 0 part)) (hr : r.WellFormed)
    (hok : r.judgeHeader h = none) (hshort : w.remainingBytes < 2 ^ 31)
    (hlast : w.remainingBytes ≤ src.length) {delivered : Receiver Z × List Event}
    (hdelivered : delivered = r.deliver h
      (keystream h.key 0 (((pending ++ src).drop h.size).take h.length))) :
    (∃ w' s', consumeContinuation protocolHooks src w s = .stop w' s' ∧
        s'.Ended delivered.1 ∧ s'.events = s.events ++ delivered.2) ∨
      ∃ w' s', consumeContinuation protocolHooks src w s =
          .next ((pending ++ src).drop (h.size + h.length)) w' s' ∧
        Delivered s.events true w' s' delivered := by
  have hunmasked : unmaskFinal (src.take w.remainingBytes) w.mask =
      keystream h.key part.length (src.take (h.length - part.length)) := by
    rw [unmaskFinal_eq_keystream _ (by rw [List.length_take]; omega), hremaining, hmask,
      keystream_rotateMask, Nat.add_zero]
  have hpayload : keystream h.key 0 (((pending ++ src).drop h.size).take h.length) =
      keystream h.key 0 part ++
        keystream h.key part.length (src.take (h.length - part.length)) := by
    rw [drop_pending_append hparse hrest, List.take_append, List.take_of_length_le hproper.le,
      keystream_append, Nat.zero_add]
  have hdrop : (pending ++ src).drop (h.size + h.length) = src.drop w.remainingBytes := by
    rw [← List.drop_drop, drop_pending_append hparse hrest, List.drop_append,
      List.drop_of_length_le hproper.le, List.nil_append, hremaining]
  rw [hdrop]
  rw [hpayload, ← hunmasked] at hdelivered
  exact consumeContinuation_delivers hparse hproper hremaining hspill hw hs hr hok hlast hdelivered

/-- A proper part of an awaited payload leaves the frame incomplete. -/
theorem consumeContinuation_part (hparse : parseHeader pending = some h)
    (hrest : part = pending.drop h.size) (hremaining : w.remainingBytes = h.length - part.length)
    (hmask : w.mask = rotateMask (4 - part.length % 4) h.key) (hspill : w.spill = [])
    (hwants : w.wantsHead = false) (hw : w.Inside r h)
    (hs : s.Holds r h (keystream h.key 0 part)) (hr : r.WellFormed)
    (hok : r.judgeHeader h = none) (hpart : src.length < h.length - part.length) :
    ∃ w' s', consumeContinuation protocolHooks src w s = .stop w' s' ∧
      s'.events = s.events ∧ Reads w' s' r (pending ++ src) := by
  have hlength := pending_length hparse hrest
  have hunmasked : unmaskInplace src src.length w.mask = keystream h.key part.length src := by
    rw [unmaskInplace_length, hmask, keystream_rotateMask, Nat.add_zero]
  have hpayload : keystream h.key 0 (part ++ src) =
      keystream h.key 0 part ++ keystream h.key part.length src := by
    rw [keystream_append, Nat.zero_add]
  obtain ⟨s', hhandled, hevents, hholds⟩ := Session.handleFragment_part
    (keystream h.key part.length src) (h.length - part.length - src.length)
    hs hr hok (parseHeader_length hparse) (by omega) (by
      simp only [keystream_length]
      omega)
  rw [← hpayload] at hholds
  have hrotated : (if src.length % 4 ≠ 0 then rotateMask (4 - src.length % 4) w.mask else w.mask) =
      rotateMask (4 - (part ++ src).length % 4) h.key := by
    rw [hmask, List.length_append]
    split_ifs with hmod
    · exact rotateMask_rotateMask _ _ _
    · congr 2
      omega
  rw [consumeContinuation_of_lt protocolHooks (by omega)
    (by rw [hunmasked, hremaining, hw.current, hw.lastFin]; exact hhandled)]
  exact ⟨_, _, rfl, hevents, .payload h hwants hspill (parseHeader_append src hparse) hok
    (part ++ src) (drop_pending_append hparse hrest).symm (by rw [List.length_append]; omega)
    (by simp only [List.length_append]; omega) hrotated
    ⟨hw.fragmentedMessage, hw.opStack, hw.current, hw.below, hw.lastFin⟩ hholds hr⟩

/-- A chunk carries the parser on as the receiver drains it. -/
theorem consume_parses (hreads : Reads w s r pending) (hsrc : src.length < 2 ^ 31) :
    Parses s.events (consume protocolHooks src w s)
      ((Receiver.decoder Z).drain r (pending ++ src)) := by
  cases hreads with
  | header hwants hspill hparse hw hs hr =>
    rw [consume, if_pos hwants, hspill]
    refine parseNext_parses _ hwants (fun hempty => ?_) hw hs hr
    rw [hspill]
    exact (List.append_eq_nil_iff.mp hempty).1
  | payload h hwants hspill hparse hok part hrest hproper hremaining hmask hw hs hr =>
    have hlength := pending_length hparse hrest
    have hparse' := parseHeader_append src hparse
    rw [consume, if_neg (by simp [hwants]), hspill, List.nil_append]
    by_cases hlast : w.remainingBytes ≤ src.length
    · have hnext := Receiver.next_of_whole hs.receiverOpen hparse' hok
        (by rw [List.length_append]; omega)
      rcases consumeContinuation_last hparse hrest hproper hremaining hmask hspill hw hs hr hok
        (by omega) hlast rfl with ⟨w', s', hconsumed, hended, hevents⟩ | ⟨w', s', hconsumed, hdelivered⟩
      · rw [hconsumed]
        exact .refused hnext hevents hended
      · have hparses := parseNext_parses
          ((pending ++ src).drop (h.size + h.length)) hdelivered.wantsHead
          (fun _ => hdelivered.spill) hdelivered.parser hdelivered.session hdelivered.wellFormed
        rw [hdelivered.events] at hparses
        rw [hconsumed]
        exact .cons hnext hparses
    · have hpart : src.length < h.length - part.length := by omega
      obtain ⟨w', s', hconsumed, hevents, hreads⟩ := consumeContinuation_part hparse hrest
        hremaining hmask hspill hwants hw hs hr hok hpart
      rw [hconsumed, (Receiver.decoder Z).drain_of_next_none
        (Receiver.next_of_part hparse' hok (by rw [List.length_append]; omega))]
      exact ⟨hevents.trans (List.append_nil _).symm, .inr hreads⟩

end Chunk

end Eiows
