import Eiows.Receiver.Frames

/-!
# Handling fragments

The session receives the payload of a frame in parts. Handing over a proper
part keeps it at the same frame, and handing over the last part does to the
session what the whole frame does to the receiver.
-/

namespace Eiows

variable {Z : Zlib}

/-- The inflate stream of the context that incoming messages use. -/
def Session.inflater (s : Session Z) : Option (Option Z.Inflate) :=
  (if hasOption s.extensionOptions CLIENT_NO_CONTEXT_TAKEOVER then s.sharedCompressionContext
    else s.privateCompressionContext).map (·.inflationStream)

namespace Session

/-- An open session agrees with a receiver, apart from the data in flight. -/
structure Agrees (s : Session Z) (r : Receiver Z) : Prop where
  maxPayload : s.maxPayload = r.maxPayload
  options : s.extensionOptions = r.options
  inflater : s.inflater = r.inflater
  closeSent : s.closeSent = r.closeSent
  failureCode : s.failureCode = 1002
  sessionOpen : s.closing = false
  receiverOpen : r.closing = false

/-- Both the session and the receiver have ended. -/
structure Ended (s : Session Z) (r : Receiver Z) : Prop where
  session : s.closing = true
  receiver : r.closing = true
  closeSent : s.closeSent = r.closeSent

/-- Between frames, apart from the fragment buffer. -/
structure Aligned (s : Session Z) (r : Receiver Z) : Prop extends Agrees s r where
  compression : s.compressionStatus = r.compression
  tip : s.controlTipLength = 0

/-- Between frames. After a Close frame the buffer is not looked at. -/
structure Rests (s : Session Z) (r : Receiver Z) : Prop extends Aligned s r where
  buffer : r.closeSent = false → s.fragmentBuffer = r.data

/-- Inside the frame `h`, of which the unmasked bytes `part` have been handed
over. A control frame lies on top of whatever the buffer held before. -/
structure Holds (s : Session Z) (r : Receiver Z) (h : FrameHeader) (part : Bytes) : Prop
    extends Agrees s r where
  compression : s.compressionStatus = r.compressionIn h
  data : h.isData = true →
    s.controlTipLength = 0 ∧ (r.closeSent = false → s.fragmentBuffer = r.data ++ part)
  control : h.isData = false →
    s.controlTipLength = part.length ∧
      ∃ base, (r.closeSent = false → base = r.data) ∧ s.fragmentBuffer = base ++ part

/-- The session before the payload of a frame, once RSV1 has been noted. -/
theorem Rests.holds {s : Session Z} {r : Receiver Z} {h : FrameHeader}
    {status : CompressionStatus} (hs : s.Rests r) (hstatus : status = r.compressionIn h) :
    Holds { s with compressionStatus := status } r h [] :=
  { hs with
    compression := hstatus
    data := fun _ => ⟨hs.tip, fun hsent => (hs.buffer hsent).trans (List.append_nil _).symm⟩
    control := fun _ => ⟨hs.tip, s.fragmentBuffer, hs.buffer, (List.append_nil _).symm⟩ }

/-- The session ends a unit of input as the receiver does: the same events, and
either both have ended or they are related by `P`. -/
structure Outcome (P : Session Z → Receiver Z → Prop) (before : List Event)
    (handled : Bool × Session Z) (delivered : Receiver Z × List Event) : Prop where
  events : handled.2.events = before ++ delivered.2
  stops : handled.1 = delivered.1.closing
  remains : delivered.1.closing = false → P handled.2 delivered.1
  ends : delivered.1.closing = true → handled.2.Ended delivered.1

/-- A unit of input after which both go on. -/
theorem Outcome.goesOn {P : Session Z → Receiver Z → Prop} {before : List Event}
    {s' : Session Z} {r' : Receiver Z} {es : List Event} (hevents : s'.events = before ++ es)
    (hopen : r'.closing = false) (h : P s' r') : Outcome P before (false, s') (r', es) := by
  refine ⟨hevents, hopen.symm, fun _ => h, fun hclosed => ?_⟩
  rw [hopen] at hclosed
  cases hclosed

/-- A unit of input that ends both. -/
theorem Outcome.stopsBoth {P : Session Z → Receiver Z → Prop} {before : List Event}
    {s' : Session Z} {r' : Receiver Z} {es : List Event} (hevents : s'.events = before ++ es)
    (h : s'.Ended r') : Outcome P before (true, s') (r', es) := by
  refine ⟨hevents, h.receiver.symm, fun hopen => ?_, fun _ => h⟩
  rw [h.receiver] at hopen
  cases hopen

theorem Outcome.mono {P Q : Session Z → Receiver Z → Prop} {before : List Event}
    {handled : Bool × Session Z} {delivered : Receiver Z × List Event}
    (h : Outcome P before handled delivered)
    (hPQ : P handled.2 delivered.1 → Q handled.2 delivered.1) :
    Outcome Q before handled delivered :=
  ⟨h.events, h.stops, fun hopen => hPQ (h.remains hopen), h.ends⟩

/-- A failure refuses the connection. -/
theorem fail_ended {s : Session Z} {r : Receiver Z} (code : ℕ) (hopen : s.closing = false)
    (hsent : s.closeSent = r.closeSent) :
    (s.fail code).Ended (r.refuse code).1 ∧
      (s.fail code).events = s.events ++ (r.refuse code).2 := by
  cases hr : r.closeSent with
  | true =>
    have hs : s.closeSent = true := hsent.trans hr
    simp only [fail, hopen, hs, Receiver.refuse, hr, emitClose, if_true, Bool.false_eq_true,
      if_false, List.nil_append, and_true]
    exact ⟨rfl, rfl, rfl⟩
  | false =>
    have hs : s.closeSent = false := hsent.trans hr
    simp only [fail, hopen, hs, Receiver.refuse, hr, emitClose, emitFrame, Bool.false_eq_true,
      if_false, List.append_assoc, and_true]
    exact ⟨rfl, rfl, rfl⟩

theorem forceClose_ended {s : Session Z} {r : Receiver Z} (hcode : s.failureCode = 1002)
    (hopen : s.closing = false) (hsent : s.closeSent = r.closeSent) :
    s.forceClose.Ended (r.refuse 1002).1 ∧
      s.forceClose.events = s.events ++ (r.refuse 1002).2 := by
  rw [forceClose, hcode]
  exact fail_ended 1002 hopen hsent

theorem failWith_outcome {P : Session Z → Receiver Z → Prop} {s : Session Z} {r : Receiver Z}
    (code : ℕ) (hopen : s.closing = false) (hsent : s.closeSent = r.closeSent) :
    Outcome P s.events (true, s.failWith code) (r.refuse code) := by
  obtain ⟨hended, hevents⟩ :=
    fail_ended (s := { s with failureCode := code }) (r := r) code hopen hsent
  exact .stopsBoth hevents hended

/-- Inflating touches the compression contexts only. -/
theorem inflateMessage_spec {s : Session Z} {r : Receiver Z} (data : Bytes)
    (hpayload : s.maxPayload = r.maxPayload) (hoptions : s.extensionOptions = r.options)
    (hinflater : s.inflater = r.inflater) :
    ∃ shared own, s.inflateMessage data = ((r.inflate data).1, (r.inflate data).2.1,
        { s with sharedCompressionContext := shared, privateCompressionContext := own }) ∧
      Session.inflater { s with
        sharedCompressionContext := shared, privateCompressionContext := own } =
        (r.inflate data).2.2 := by
  unfold Session.inflater at hinflater
  unfold Session.inflateMessage Receiver.inflate
  rw [← hinflater, ← hoptions, ← hpayload]
  by_cases htakeover : hasOption s.extensionOptions CLIENT_NO_CONTEXT_TAKEOVER = true
  · cases hcontext : s.sharedCompressionContext with
    | none =>
      refine ⟨none, s.privateCompressionContext, ?_, by simp [inflater, htakeover]⟩
      simp only [htakeover, if_true, Option.map_none]
      rw [← hcontext]
    | some context =>
      exact ⟨some { context with
          inflationStream := (Z.inflateMessage context.inflationStream data s.maxPayload true).2.2 },
        s.privateCompressionContext, by simp [htakeover],
        by simp [inflater, htakeover]⟩
  · cases hcontext : s.privateCompressionContext with
    | none =>
      refine ⟨s.sharedCompressionContext, none, ?_, by simp [inflater, htakeover]⟩
      simp only [htakeover, if_false, Option.map_none, Bool.false_eq_true]
      rw [← hcontext]
    | some context =>
      exact ⟨s.sharedCompressionContext, some { context with
          inflationStream := (Z.inflateMessage context.inflationStream data s.maxPayload false).2.2 },
        by simp [htakeover], by simp [inflater, htakeover]⟩

/-- Validating and reporting a message. -/
theorem emitMessage_outcome {s : Session Z} {r : Receiver Z} (data : Bytes) (opCode : OpCode)
    (hs : s.Aligned r) :
    Outcome (fun s' r' => s'.Aligned r' ∧ s'.fragmentBuffer = s.fragmentBuffer ∧
      r'.data = r.data) s.events (s.emitMessage data opCode) (r.report data opCode) := by
  unfold emitMessage Receiver.report
  split_ifs
  · exact failWith_outcome 1007 hs.sessionOpen hs.closeSent
  · exact .goesOn rfl hs.receiverOpen ⟨{ hs with }, rfl, rfl⟩

/-- Inflating, validating and reporting a complete message. -/
theorem completeMessage_outcome {s : Session Z} {r : Receiver Z} (data : Bytes) (opCode : OpCode)
    (hs : s.Aligned r) :
    Outcome (fun s' r' => s'.Aligned r' ∧ s'.fragmentBuffer = s.fragmentBuffer ∧
      r'.data = r.data) s.events (s.completeMessage data opCode) (r.complete data opCode) := by
  unfold completeMessage Receiver.complete
  rw [hs.compression]
  split_ifs with hcompressed
  · obtain ⟨shared, own, hresult, hinflater⟩ :=
      inflateMessage_spec (s := { s with compressionStatus := .enabled }) data
        hs.maxPayload hs.options hs.inflater
    have hs' : Aligned { s with
          compressionStatus := .enabled
          sharedCompressionContext := shared
          privateCompressionContext := own }
        { r with compression := .enabled, inflater := (r.inflate data).2.2 } :=
      { hs with compression := rfl, inflater := hinflater }
    simp only [hresult]
    split_ifs with hstatus
    · exact failWith_outcome _ hs'.sessionOpen hs'.closeSent
    · exact emitMessage_outcome _ opCode hs'
  · exact emitMessage_outcome data opCode hs

end Session

/-- The two tests of a length against the limits of a session. -/
theorem payloadLimit_lt {maxPayload length : ℕ} :
    payloadLimit maxPayload < length ↔
      (maxPayload ≠ 0 ∧ maxPayload < length) ∨ unsignedMax < length := by
  unfold payloadLimit
  split_ifs with hzero <;> omega

namespace Session

theorem appendFragment_of_le {s : Session Z} {data : Bytes} {remainingBytes : ℕ}
    (h : s.fragmentBuffer.length + data.length + remainingBytes ≤ payloadLimit s.maxPayload) :
    s.appendFragment data remainingBytes =
      (true, { s with fragmentBuffer := s.fragmentBuffer ++ data }) := by
  simp only [appendFragment]
  rw [if_neg (payloadLimit_lt.not.mp (Nat.not_lt.mpr h))]

theorem appendFragment_of_lt {s : Session Z} {data : Bytes} {remainingBytes : ℕ}
    (h : payloadLimit s.maxPayload < s.fragmentBuffer.length + data.length + remainingBytes) :
    s.appendFragment data remainingBytes = (false, s.failWith 1009) := by
  simp only [appendFragment]
  rw [if_pos (payloadLimit_lt.mp h)]

theorem handleFragment_ignored {s : Session Z} {opCode : OpCode} (data : Bytes)
    (remainingBytes : ℕ) (fin : Bool) (hopen : s.closing = false) (hsent : s.closeSent = true)
    (hopCode : opCode.value < 3) : s.handleFragment data remainingBytes opCode fin = (false, s) := by
  cases opCode <;> simp_all [handleFragment, OpCode.value]

theorem handleFragment_data {s : Session Z} {opCode : OpCode} (data : Bytes)
    (remainingBytes : ℕ) (fin : Bool) (hopen : s.closing = false) (hsent : s.closeSent = false)
    (hopCode : opCode.value < 3) :
    s.handleFragment data remainingBytes opCode fin =
      s.handleData data remainingBytes opCode fin := by
  simp [handleFragment, hopen, hsent, hopCode]

theorem handleFragment_control {s : Session Z} {opCode : OpCode} (data : Bytes)
    (remainingBytes : ℕ) (fin : Bool) (hopen : s.closing = false) (hopCode : 3 ≤ opCode.value) :
    s.handleFragment data remainingBytes opCode fin =
      s.handleControl data remainingBytes opCode fin := by
  cases opCode <;> simp_all [handleFragment, OpCode.value]

/-- A proper part of a data frame within the limit is collected, or ignored
after a Close frame. -/
theorem handleFragment_data_part {s : Session Z} {r : Receiver Z} {h : FrameHeader}
    {part data : Bytes} {remainingBytes : ℕ} {opCode : OpCode} (fin : Bool)
    (hs : s.Holds r h part) (hdata : h.isData = true) (hopCode : opCode.value < 3)
    (hlimit : r.tooLong h = false) (hremaining : 0 < remainingBytes)
    (hlength : part.length + data.length + remainingBytes = h.length) :
    ∃ s', s.handleFragment data remainingBytes opCode fin = (false, s') ∧
      s'.events = s.events ∧ s'.Holds r h (part ++ data) := by
  obtain ⟨htip, hbuffer⟩ := hs.data hdata
  have hclash : h.isData ≠ false := by simp [hdata]
  cases hsent : r.closeSent with
  | true =>
    refine ⟨s, handleFragment_ignored data _ fin hs.sessionOpen (hs.closeSent.trans hsent) hopCode,
      rfl, { hs with
        data := fun _ => ⟨htip, fun hfalse => ?_⟩
        control := fun hfalse => absurd hfalse hclash }⟩
    rw [hsent] at hfalse
    cases hfalse
  | false =>
    have hbuffer := hbuffer hsent
    have hfits : s.fragmentBuffer.length + data.length + remainingBytes ≤
        payloadLimit s.maxPayload := by
      simp only [Receiver.tooLong, hdata, hsent, Bool.true_and, decide_eq_false_iff_not,
        Bool.false_eq_true, if_false] at hlimit
      rw [hbuffer, hs.maxPayload, List.length_append]
      omega
    refine ⟨{ s with fragmentBuffer := s.fragmentBuffer ++ data }, ?_, rfl, { hs with
        data := fun _ => ⟨htip, fun _ => by simp only [hbuffer, List.append_assoc]⟩
        control := fun hfalse => absurd hfalse hclash }⟩
    rw [handleFragment_data data _ fin hs.sessionOpen (hs.closeSent.trans hsent) hopCode]
    have hnotdone : ¬(remainingBytes = 0 ∧ fin = true ∧ s.fragmentBuffer = []) := by omega
    have hnotlast : ¬(remainingBytes = 0 ∧ fin = true) := by omega
    simp only [handleData, appendFragment_of_le hfits, if_neg hnotdone, if_neg hnotlast,
      Bool.not_true, Bool.false_eq_true, if_false]

/-- A data frame that makes its message too long fails with its first part. -/
theorem handleFragment_tooLong {P : Session Z → Receiver Z → Prop} {s : Session Z}
    {r : Receiver Z} {h : FrameHeader} {data : Bytes} {remainingBytes : ℕ} {opCode : OpCode}
    (fin : Bool) (hs : s.Holds r h []) (hdata : h.isData = true) (hopCode : opCode.value < 3)
    (hframe : h.length ≤ payloadLimit r.maxPayload) (hlimit : r.tooLong h = true)
    (hlength : data.length + remainingBytes = h.length) :
    Outcome P s.events (s.handleFragment data remainingBytes opCode fin) (r.refuse 1009) := by
  obtain ⟨htip, hbuffer⟩ := hs.data hdata
  simp only [Receiver.tooLong, hdata, Bool.true_and, decide_eq_true_eq] at hlimit
  have hsent : r.closeSent = false := by
    by_contra hsent
    rw [if_pos (by simpa using hsent)] at hlimit
    omega
  have hbuffer := hbuffer hsent
  rw [hsent] at hlimit
  simp only [Bool.false_eq_true, if_false] at hlimit
  have hlong : payloadLimit s.maxPayload <
      s.fragmentBuffer.length + data.length + remainingBytes := by
    rw [hbuffer, hs.maxPayload, List.append_nil]
    omega
  have hnotdirect : ¬(remainingBytes = 0 ∧ fin = true ∧ s.fragmentBuffer = []) := by
    rintro ⟨-, -, hempty⟩
    rw [hempty, hs.maxPayload, List.length_nil] at hlong
    omega
  rw [handleFragment_data data _ fin hs.sessionOpen (hs.closeSent.trans hsent) hopCode]
  simp only [handleData, if_neg hnotdirect, appendFragment_of_lt hlong, Bool.not_false, if_true]
  exact failWith_outcome 1009 hs.sessionOpen hs.closeSent

/-- A message from the buffer is completed before the buffer is emptied. -/
private theorem Outcome.emptied {before : List Event} {handled : Bool × Session Z}
    {delivered : Receiver Z × List Event} {data buffer : Bytes} (hdata : data = [])
    (h : Outcome (fun s' r' => s'.Aligned r' ∧ s'.fragmentBuffer = buffer ∧ r'.data = data)
      before handled delivered) :
    Outcome Rests before
      (if handled.1 then handled else (false, { handled.2 with fragmentBuffer := [] }))
      delivered := by
  cases hclosing : delivered.1.closing with
  | true =>
    rw [if_pos (h.stops.trans hclosing)]
    refine ⟨h.events, h.stops, fun hopen => ?_, h.ends⟩
    rw [hclosing] at hopen
    cases hopen
  | false =>
    obtain ⟨haligned, -, hempty⟩ := h.remains hclosing
    rw [if_neg (by simp [h.stops, hclosing])]
    refine ⟨h.events, hclosing.symm, fun _ => ?_, fun hclosed => ?_⟩
    · exact { haligned with buffer := fun _ => (hempty.trans hdata).symm }
    · rw [hclosing] at hclosed
      cases hclosed

/-- The last part of a data frame delivers the frame. -/
theorem handleFragment_data_last {s : Session Z} {r : Receiver Z} {h : FrameHeader}
    {part data : Bytes} (hs : s.Holds r h part) (hdata : h.isData = true)
    (hopCode : (r.messageOpCode h).value < 3) (hlimit : r.tooLong h = false)
    (hlength : part.length + data.length = h.length) :
    Outcome Rests s.events (s.handleFragment data 0 (r.messageOpCode h) h.fin)
      (r.deliver h (part ++ data)) := by
  obtain ⟨htip, hbuffer⟩ := hs.data hdata
  simp only [Receiver.deliver, hdata, if_true, Receiver.deliverData]
  cases hsent : r.closeSent with
  | true =>
    rw [handleFragment_ignored data _ _ hs.sessionOpen (hs.closeSent.trans hsent) hopCode]
    simp only [if_true]
    exact .goesOn (by simp) hs.receiverOpen { hs with
      tip := htip
      closeSent := hs.closeSent.trans hsent
      buffer := fun hfalse => by cases hfalse }
  | false =>
    have hbuffer := hbuffer hsent
    rw [handleFragment_data data _ _ hs.sessionOpen (hs.closeSent.trans hsent) hopCode]
    have hfits : s.fragmentBuffer.length + data.length + 0 ≤ payloadLimit s.maxPayload := by
      simp only [Receiver.tooLong, hdata, hsent, Bool.true_and, decide_eq_false_iff_not,
        Bool.false_eq_true, if_false] at hlimit
      rw [hbuffer, hs.maxPayload, List.length_append]
      omega
    cases hfin : h.fin with
    | false =>
      simp only [handleData, appendFragment_of_le hfits, Bool.false_eq_true, and_false, false_and,
        if_false, Bool.not_true]
      exact .goesOn (by simp) hs.receiverOpen { hs with
        tip := htip
        closeSent := hs.closeSent.trans hsent
        buffer := fun _ => by simp only [hbuffer, List.append_assoc] }
    | true =>
      simp only [handleData, appendFragment_of_le hfits, true_and, if_true, Bool.false_eq_true,
        if_false, Bool.not_true]
      have haligned : s.Aligned { r with
          compression := r.compressionIn h, message := none, data := [], closeSent := false } :=
        { hs with tip := htip, closeSent := hs.closeSent.trans hsent }
      by_cases hempty : s.fragmentBuffer = []
      · obtain ⟨hno, hpart⟩ : r.data = [] ∧ part = [] := by
          simpa only [hbuffer, List.append_eq_nil_iff] using hempty
        rw [if_pos hempty, hno, hpart]
        refine (completeMessage_outcome data (r.messageOpCode h) haligned).mono ?_
        rintro ⟨hafter, hkept, hdata⟩
        exact { hafter with buffer := fun _ => (hkept.trans hempty).trans hdata.symm }
      · rw [if_neg hempty, ← List.append_assoc, ← hbuffer]
        have haligned : Aligned { s with fragmentBuffer := s.fragmentBuffer ++ data } _ :=
          { haligned with }
        exact Outcome.emptied rfl
          (completeMessage_outcome (s.fragmentBuffer ++ data) (r.messageOpCode h) haligned)

/-- A proper part of a control frame is collected on top of the buffer. -/
theorem handleFragment_control_part {s : Session Z} {r : Receiver Z} {h : FrameHeader}
    {part data : Bytes} {remainingBytes : ℕ} {opCode : OpCode} (fin : Bool)
    (hs : s.Holds r h part) (hcontrol : h.isData = false) (hopCode : 3 ≤ opCode.value)
    (hremaining : 0 < remainingBytes)
    (hlength : part.length + data.length + remainingBytes ≤ 125) :
    ∃ s', s.handleFragment data remainingBytes opCode fin = (false, s') ∧
      s'.events = s.events ∧ s'.Holds r h (part ++ data) := by
  obtain ⟨htip, base, hbase, hbuffer⟩ := hs.control hcontrol
  have hnotlast : ¬(remainingBytes = 0 ∧ fin = true) := by omega
  have hnotdirect : ¬(remainingBytes = 0 ∧ fin = true ∧ s.controlTipLength = 0) := by omega
  refine ⟨{ s with
    fragmentBuffer := s.fragmentBuffer ++ data
    controlTipLength := (s.controlTipLength + data.length % 256) % 256 }, ?_, rfl, { hs with
      data := fun hdata => absurd hcontrol (by simp [hdata])
      control := fun _ => ⟨?_, base, hbase, ?_⟩ }⟩
  · rw [handleFragment_control data _ fin hs.sessionOpen hopCode]
    simp only [handleControl, if_neg hnotdirect, if_neg hnotlast]
  · simp only [htip, List.length_append]
    omega
  · simp only [hbuffer, List.append_assoc]

theorem completeClose_outcome {P : Session Z → Receiver Z → Prop} {s : Session Z}
    {r : Receiver Z} (payload : Bytes) (hopen : s.closing = false)
    (hsent : s.closeSent = r.closeSent) :
    Outcome P s.events (true, s.completeClose payload) (r.deliverClose payload) := by
  unfold completeClose Receiver.deliverClose
  simp only [hsent]
  split_ifs with hcode hsent'
  · exact failWith_outcome 1002 hopen hsent
  · exact .stopsBoth (by simp [emitClose]) ⟨rfl, rfl, hsent'⟩
  · exact .stopsBoth (by simp [emitClose, emitFrame]) ⟨rfl, rfl, rfl⟩

/-- The last part of a control frame delivers the frame. -/
theorem handleFragment_control_last {s : Session Z} {r : Receiver Z} {h : FrameHeader}
    {part data : Bytes} (hs : s.Holds r h part) (hcontrol : h.isData = false)
    (hopCode : 3 ≤ h.opCode.value) (hrsv : h.rsv1 = false)
    (hlength : part.length + data.length ≤ 125) :
    Outcome Rests s.events (s.handleFragment data 0 h.opCode true) (r.deliver h (part ++ data)) := by
  obtain ⟨htip, base, hbase, hbuffer⟩ := hs.control hcontrol
  have hcompression : s.compressionStatus = r.compression := by
    rw [hs.compression, Receiver.compressionIn, hrsv]
    rfl
  rw [handleFragment_control data _ _ hs.sessionOpen hopCode]
  simp only [handleControl, Receiver.deliver, hcontrol, Bool.false_eq_true, if_false, true_and,
    Receiver.deliverControl]
  by_cases hdirect : s.controlTipLength = 0
  · have hpart : part = [] := List.length_eq_zero_iff.mp (htip.symm.trans hdirect)
    subst hpart
    have hrests : s.Rests r :=
      { hs with
        compression := hcompression
        tip := hdirect
        buffer := fun hsent => by rw [hbuffer, hbase hsent, List.append_nil] }
    rw [if_pos hdirect, List.nil_append]
    split_ifs with hclose hping
    · exact completeClose_outcome data hs.sessionOpen hs.closeSent
    · exact .goesOn rfl hs.receiverOpen { hrests with }
    · exact .goesOn (by simp) hs.receiverOpen hrests
  · have hcount : (s.controlTipLength + data.length % 256) % 256 = part.length + data.length := by
      rw [htip]
      omega
    have htotal : (s.fragmentBuffer ++ data).length - (part.length + data.length) =
        base.length := by
      simp only [hbuffer, List.length_append]
      omega
    have hdrop : (s.fragmentBuffer ++ data).drop base.length = part ++ data := by
      simp [hbuffer]
    have htake : (s.fragmentBuffer ++ data).take base.length = base := by
      simp [hbuffer]
    rw [if_neg hdirect]
    by_cases hclose : h.opCode = .close
    · simp only [hcount, htotal, hdrop, hclose, if_true]
      have hended := completeClose_outcome (P := Rests)
        (s := { s with
          fragmentBuffer := s.fragmentBuffer ++ data
          controlTipLength := part.length + data.length })
        (part ++ data) hs.sessionOpen hs.closeSent
      exact hended
    · by_cases hping : h.opCode = .ping
      · simp only [hcount, htotal, hdrop, htake, if_neg hclose, if_pos hping, emitFrame]
        exact .goesOn rfl hs.receiverOpen
          { hs with compression := hcompression, tip := rfl, buffer := hbase }
      · simp only [hcount, htotal, htake, if_neg hclose, if_neg hping]
        exact .goesOn (by simp) hs.receiverOpen
          { hs with compression := hcompression, tip := rfl, buffer := hbase }

/-- A proper part of an accepted frame keeps the session at that frame. -/
theorem handleFragment_part {s : Session Z} {r : Receiver Z} {h : FrameHeader}
    {part : Bytes} (data : Bytes) (remainingBytes : ℕ) (hs : s.Holds r h part) (hr : r.WellFormed)
    (hok : r.judgeHeader h = none) (hmarker : h.marker < 126 → h.length = h.marker)
    (hremaining : 0 < remainingBytes)
    (hlength : part.length + data.length + remainingBytes = h.length) :
    ∃ s', s.handleFragment data remainingBytes (r.frameOpCode h) h.fin = (false, s') ∧
      s'.events = s.events ∧ s'.Holds r h (part ++ data) := by
  obtain ⟨hvalid, -, hsequence, hlimit⟩ := Receiver.judgeHeader_eq_none.mp hok
  unfold Receiver.frameOpCode
  split_ifs with hdata
  · have hopCode := hr.messageOpCode_value_lt hdata hsequence
    exact handleFragment_data_part h.fin hs hdata hopCode hlimit hremaining hlength
  · have hcontrol : h.isData = false := by simpa using hdata
    obtain ⟨-, hshort, hopCode⟩ := FrameHeader.control_of_not_malformed hvalid hcontrol
    have hlong := hmarker (by omega)
    exact handleFragment_control_part h.fin hs hcontrol hopCode hremaining (by omega)

/-- The last part of an accepted frame delivers the frame. -/
theorem handleFragment_last {s : Session Z} {r : Receiver Z} {h : FrameHeader}
    {part data : Bytes} (hs : s.Holds r h part) (hr : r.WellFormed)
    (hok : r.judgeHeader h = none) (hmarker : h.marker < 126 → h.length = h.marker)
    (hlength : part.length + data.length = h.length) :
    Outcome Rests s.events (s.handleFragment data 0 (r.frameOpCode h) h.fin)
      (r.deliver h (part ++ data)) := by
  obtain ⟨hvalid, hcompression, hsequence, hlimit⟩ := Receiver.judgeHeader_eq_none.mp hok
  unfold Receiver.frameOpCode
  split_ifs with hdata
  · have hopCode := hr.messageOpCode_value_lt hdata hsequence
    exact handleFragment_data_last hs hdata hopCode hlimit hlength
  · have hcontrol : h.isData = false := by simpa using hdata
    obtain ⟨hfin, hshort, hopCode⟩ := FrameHeader.control_of_not_malformed hvalid hcontrol
    have hlong := hmarker (by omega)
    rw [hfin]
    exact handleFragment_control_last hs hcontrol hopCode
      (Receiver.rsv1_eq_false hcompression hcontrol) (by omega)

end Session

end Eiows
