import Eiows.Session.StreamWebSocket

/-!
# The closing state of a session

A session produces at most one Close frame and reports at most one CLOSE event,
which is its last event. Both facts follow from what one call can add to the
events.
-/

namespace Eiows

variable {Z : Zlib}

/-- The events that can be added, with the flags `closing` and `closeSent` before
and after. -/
inductive Batch : Bool → Bool → List Event → Bool → Bool → Prop
  | nil (closing closeSent : Bool) : Batch closing closeSent [] closing closeSent
  | message {closeSent closing' closeSent' : Bool} {es : List Event} (payload : Bytes)
      (opCode : OpCode) (rest : Batch false closeSent es closing' closeSent') :
      Batch false closeSent (.message payload opCode :: es) closing' closeSent'
  | pong {closeSent closing' closeSent' : Bool} {es : List Event} {data : Bytes}
      (head : data.head? = some 0x8a) (rest : Batch false closeSent es closing' closeSent') :
      Batch false closeSent (.frame data :: es) closing' closeSent'
  | reply {data : Bytes} (head : data.head? = some 0x88) (code : ℕ) (reason : Bytes) :
      Batch false false [.frame data, .close code reason] true true
  | ended (code : ℕ) (reason : Bytes) : Batch false true [.close code reason] true true

theorem Batch.of_closing {closeSent closing' closeSent' : Bool} {es : List Event}
    (h : Batch true closeSent es closing' closeSent') :
    es = [] ∧ closing' = true ∧ closeSent' = closeSent := by
  cases h
  exact ⟨rfl, rfl, rfl⟩

theorem Batch.append {closing closeSent closing' closeSent' closing'' closeSent'' : Bool}
    {es es' : List Event} (h : Batch closing closeSent es closing' closeSent')
    (h' : Batch closing' closeSent' es' closing'' closeSent'') :
    Batch closing closeSent (es ++ es') closing'' closeSent'' := by
  induction h with
  | nil => exact h'
  | message payload opCode _ ih => exact .message payload opCode (ih h')
  | pong head _ ih => exact .pong head (ih h')
  | reply head code reason =>
    obtain ⟨rfl, rfl, rfl⟩ := h'.of_closing
    exact .reply head code reason
  | ended code reason =>
    obtain ⟨rfl, rfl, rfl⟩ := h'.of_closing
    exact .ended code reason

theorem Batch.mono {closing closeSent closing' closeSent' : Bool} {es : List Event}
    (h : Batch closing closeSent es closing' closeSent') :
    (closing = true → closing' = true) ∧ (closeSent = true → closeSent' = true) := by
  induction h with
  | nil => exact ⟨id, id⟩
  | message _ _ _ ih => exact ⟨fun h => (by cases h), ih.2⟩
  | pong _ _ ih => exact ⟨fun h => (by cases h), ih.2⟩
  | reply => exact ⟨fun _ => rfl, fun _ => rfl⟩
  | ended => exact ⟨fun _ => rfl, fun _ => rfl⟩

/-- The first byte of a formatted frame. -/
theorem formatFrame_head (data : Bytes) (opCode : OpCode) :
    (formatFrame data opCode false).head? = some (UInt8.ofNat (128 + opCode.value)) := by
  simp [formatFrame, formatMessage, formatMessageHeader]

theorem formatClose_head (code : ℕ) (message : Bytes) :
    (formatClose code message).head? = some 0x88 :=
  formatFrame_head _ .close

namespace Session

/-- A step of the session adds events as allowed. -/
def Emits (s s' : Session Z) : Prop :=
  ∃ es, s'.events = s.events ++ es ∧ Batch s.closing s.closeSent es s'.closing s'.closeSent

theorem Emits.same {s s' : Session Z} (hevents : s'.events = s.events)
    (hclosing : s'.closing = s.closing) (hsent : s'.closeSent = s.closeSent) : s.Emits s' := by
  refine ⟨[], ?_, ?_⟩
  · rw [hevents, List.append_nil]
  · rw [hclosing, hsent]
    exact .nil _ _

theorem Emits.refl (s : Session Z) : s.Emits s := .same rfl rfl rfl

theorem Emits.trans {s s' s'' : Session Z} (h : s.Emits s') (h' : s'.Emits s'') : s.Emits s'' := by
  obtain ⟨es, hes, hbatch⟩ := h
  obtain ⟨es', hes', hbatch'⟩ := h'
  refine ⟨es ++ es', ?_, hbatch.append hbatch'⟩
  rw [hes', hes, List.append_assoc]

theorem fail_emits (code : ℕ) (s : Session Z) : s.Emits (s.fail code) := by
  unfold fail
  simp only
  split_ifs with hclosing hsent
  · exact .refl s
  · refine ⟨[.close 1006 []], rfl, ?_⟩
    have hclosing : s.closing = false := by simpa using hclosing
    rw [hclosing, hsent]
    simp only [emitClose]
    exact .ended 1006 []
  · have hclosing : s.closing = false := by simpa using hclosing
    have hsent : s.closeSent = false := by simpa using hsent
    refine ⟨[.frame (formatClose code []), .close 1006 []], ?_, ?_⟩
    · simp [emitClose, emitFrame]
    · rw [hclosing, hsent]
      exact .reply (formatClose_head code []) 1006 []

theorem failWith_emits (code : ℕ) (s : Session Z) : s.Emits (s.failWith code) :=
  (Emits.same rfl rfl rfl : s.Emits { s with failureCode := code }).trans (fail_emits code _)

theorem inflateMessage_emits (data : Bytes) (s : Session Z) : s.Emits (s.inflateMessage data).2.2 := by
  unfold inflateMessage
  simp only
  split
  · exact .refl s
  · split_ifs <;> exact .same rfl rfl rfl

theorem emitMessage_emits {s : Session Z} (hopen : s.closing = false) (data : Bytes)
    (opCode : OpCode) : s.Emits (s.emitMessage data opCode).2 := by
  unfold emitMessage
  split_ifs
  · exact failWith_emits 1007 s
  · refine ⟨[.message data opCode], rfl, ?_⟩
    rw [hopen]
    exact .message data opCode (.nil _ _)

theorem inflateMessage_closing (data : Bytes) (s : Session Z) :
    (s.inflateMessage data).2.2.closing = s.closing := by
  unfold inflateMessage
  simp only
  split
  · rfl
  · split_ifs <;> rfl

theorem completeMessage_emits {s : Session Z} (hopen : s.closing = false) (data : Bytes)
    (opCode : OpCode) : s.Emits (s.completeMessage data opCode).2 := by
  unfold completeMessage
  split_ifs with hcompressed
  · have hinflated : s.Emits
        ({ s with compressionStatus := .enabled }.inflateMessage data).2.2 :=
      (Emits.same rfl rfl rfl).trans (inflateMessage_emits data _)
    simp only
    split_ifs
    · exact hinflated.trans (failWith_emits _ _)
    · refine hinflated.trans (emitMessage_emits ?_ _ opCode)
      rw [inflateMessage_closing]
      exact hopen
  · exact emitMessage_emits hopen data opCode

theorem completeClose_emits {s : Session Z} (hopen : s.closing = false) (payload : Bytes) :
    s.Emits (s.completeClose payload) := by
  unfold completeClose
  simp only
  split_ifs with hinvalid hsent
  · exact failWith_emits 1002 s
  · refine ⟨[.close (parseClosePayload payload).code (parseClosePayload payload).message], rfl, ?_⟩
    rw [hopen, hsent]
    simp only [emitClose]
    exact .ended _ _
  · have hsent : s.closeSent = false := by simpa using hsent
    refine ⟨[.frame (formatClose (parseClosePayload payload).code (parseClosePayload payload).message),
      .close (parseClosePayload payload).code (parseClosePayload payload).message], ?_, ?_⟩
    · simp [emitClose, emitFrame]
    · rw [hopen, hsent]
      exact .reply (formatClose_head _ _) _ _

theorem emitPong_emits {s : Session Z} (hopen : s.closing = false) (data : Bytes) :
    s.Emits (s.emitFrame (formatFrame data .pong false)) := by
  refine ⟨[.frame (formatFrame data .pong false)], rfl, ?_⟩
  rw [hopen]
  exact .pong (formatFrame_head data .pong) (hopen ▸ .nil _ _)

theorem appendFragment_emits (data : Bytes) (remainingBytes : ℕ) (s : Session Z) :
    s.Emits (s.appendFragment data remainingBytes).2 ∧
      ((s.appendFragment data remainingBytes).1 = true →
        (s.appendFragment data remainingBytes).2.closing = s.closing) := by
  unfold appendFragment
  simp only
  split_ifs
  · exact ⟨failWith_emits 1009 s, fun h => by cases h⟩
  · exact ⟨.same rfl rfl rfl, fun _ => rfl⟩

theorem handleData_emits {s : Session Z} (hopen : s.closing = false) (data : Bytes)
    (remainingBytes : ℕ) (opCode : OpCode) (fin : Bool) :
    s.Emits (s.handleData data remainingBytes opCode fin).2 := by
  obtain ⟨happended, hstays⟩ := appendFragment_emits data remainingBytes s
  unfold handleData
  simp only
  split_ifs with hdirect hrefused hlast hended
  · exact completeMessage_emits hopen data opCode
  · exact happended
  · have hopen' := (hstays (by simpa using hrefused)).trans hopen
    exact happended.trans (completeMessage_emits hopen' _ opCode)
  · have hopen' := (hstays (by simpa using hrefused)).trans hopen
    exact (happended.trans (completeMessage_emits hopen' _ opCode)).trans (.same rfl rfl rfl)
  · exact happended

theorem handleControl_emits {s : Session Z} (hopen : s.closing = false) (data : Bytes)
    (remainingBytes : ℕ) (opCode : OpCode) (fin : Bool) :
    s.Emits (s.handleControl data remainingBytes opCode fin).2 := by
  unfold handleControl
  simp only
  split_ifs
  · exact completeClose_emits hopen data
  · exact emitPong_emits hopen data
  · exact .refl s
  all_goals
    have happended : s.Emits { s with
        fragmentBuffer := s.fragmentBuffer ++ data
        controlTipLength := (s.controlTipLength + data.length % 256) % 256 } := .same rfl rfl rfl
    refine happended.trans ?_
  · exact completeClose_emits (by exact hopen) _
  · exact (emitPong_emits (by exact hopen) _).trans (.same rfl rfl rfl)
  · exact .same rfl rfl rfl
  · exact .refl _

theorem handleFragment_emits (data : Bytes) (remainingBytes : ℕ) (opCode : OpCode) (fin : Bool)
    (s : Session Z) : s.Emits (s.handleFragment data remainingBytes opCode fin).2 := by
  unfold handleFragment
  split_ifs with hclosing
  · exact .refl s
  · exact .refl s
  · exact handleData_emits (by simpa using hclosing) data remainingBytes opCode fin
  · exact handleControl_emits (by simpa using hclosing) data remainingBytes opCode fin

end Session

/-- Every hook of the session adds events as allowed. -/
theorem protocolHooks_emits : (protocolHooks (Z := Z)).Keep Session.Emits where
  refusePayloadLength := by
    intro length s
    show s.Emits (s.refusePayloadLength length).2
    unfold Session.refusePayloadLength
    split_ifs
    · exact .same rfl rfl rfl
    · exact .refl s
  setCompressed := by
    intro s
    show s.Emits s.setCompressed.2
    unfold Session.setCompressed
    split_ifs
    · exact .same rfl rfl rfl
    · exact .refl s
  forceClose := fun s => Session.fail_emits _ s
  handleFragment := fun data remainingBytes opCode fin s =>
    Session.handleFragment_emits data remainingBytes opCode fin s

namespace StreamWebSocket

theorem feedParser_emits (data : Bytes) (ws : StreamWebSocket Z) :
    ws.session.Emits (ws.feedParser data).session :=
  consume_keeps protocolHooks_emits Session.Emits.refl (fun h h' => h.trans h') data ws.parser
    ws.session

/-- The events of one call of `consume`. -/
theorem consume_batch (data : Bytes) (ws : StreamWebSocket Z) :
    Batch ws.session.closing ws.session.closeSent (ws.consume data).events
      (ws.consume data).session.closing (ws.consume data).session.closeSent := by
  have hemits : ws.prepare.session.Emits (ws.consume data).session := by
    unfold consume
    simp only
    split_ifs
    · exact .refl _
    · exact Session.failWith_emits 1009 _
    · exact (feedParser_emits _ _).trans (feedParser_emits _ _)
    · exact feedParser_emits _ _
    · exact feedParser_emits _ _
  obtain ⟨es, hes, hbatch⟩ := hemits
  have hevents : (ws.consume data).events = es := hes
  rw [hevents]
  exact hbatch

end StreamWebSocket

end Eiows
