import Eiows.Session.CloseState

/-!
# Sequences of calls

A session is driven by calls of `consume`, `createFrame` and `createCloseFrame`,
in any order. Between two calls another session may have used the compression
context that they share. In every such sequence the session sends at most one
Close frame and reports at most one CLOSE event, after which nothing happens.
-/

namespace Eiows

variable {Z : Zlib}

/-- The calls of a session, and the work of other sessions on the shared context. -/
inductive SessionCall (Z : Zlib) where
  | consume (data : Bytes)
  | createFrame (data : Bytes) (opCode : OpCode) (compress : Bool)
  | createCloseFrame (code : ℕ) (message : Bytes)
  | contextUsed (context : Option (CompressionContext Z))

/-- What a call gives. A frame that is `none` was refused, and the output argument
is as before. -/
inductive SessionResult where
  | events (events : List Event)
  | frame (output : Option Bytes)
  | closeFrame (output : Option Bytes)
  | nothing

/-- The opcode of a frame on the wire. -/
def frameOpCode (data : Bytes) : ℕ := getOpCode data

/-- The event is a Close frame. -/
def Event.isCloseFrame : Event → Bool
  | .frame data => frameOpCode data = OpCode.close.value
  | _ => false

/-- The event is CLOSE. -/
def Event.isClose : Event → Bool
  | .close _ _ => true
  | _ => false

namespace SessionResult

/-- The events that were reported. -/
def reported : SessionResult → List Event
  | .events es => es
  | _ => []

/-- The number of Close frames that were produced. -/
def closeFrames : SessionResult → ℕ
  | .events es => es.countP (·.isCloseFrame)
  | .closeFrame (some _) => 1
  | _ => 0

end SessionResult

/-- The events reported over a sequence of calls. -/
def reportedEvents (results : List SessionResult) : List Event :=
  (results.map (·.reported)).flatten

/-- The number of Close frames produced over a sequence of calls. -/
def producedCloseFrames (results : List SessionResult) : ℕ := (results.map (·.closeFrames)).sum

namespace StreamWebSocket

/-- One call. -/
def invoke (ws : StreamWebSocket Z) : SessionCall Z → SessionResult × StreamWebSocket Z
  | .consume data => (.events (ws.consume data).events, ws.consume data)
  | .createFrame data opCode compress =>
    (.frame (ws.createFrame data opCode compress).1, (ws.createFrame data opCode compress).2)
  | .createCloseFrame code message =>
    (.closeFrame (ws.createCloseFrame code message).1, (ws.createCloseFrame code message).2)
  | .contextUsed context =>
    (.nothing, { ws with session := { ws.session with sharedCompressionContext := context } })

/-- A sequence of calls. -/
def invokeAll (ws : StreamWebSocket Z) : List (SessionCall Z) → List SessionResult × StreamWebSocket Z
  | [] => ([], ws)
  | first :: rest =>
    ((ws.invoke first).1 :: ((ws.invoke first).2.invokeAll rest).1,
      ((ws.invoke first).2.invokeAll rest).2)

end StreamWebSocket

/-- A batch sends a Close frame exactly when it sets `closeSent`. -/
theorem Batch.closeFrames {closing closeSent closing' closeSent' : Bool} {es : List Event}
    (h : Batch closing closeSent es closing' closeSent') :
    closeSent.toNat + es.countP (·.isCloseFrame) = closeSent'.toNat := by
  induction h with
  | nil => rfl
  | message payload opCode _ ih => simpa [List.countP_cons, Event.isCloseFrame] using ih
  | @pong _ _ _ _ data head _ ih =>
    have hpong : frameOpCode data = 10 := by
      cases data with
      | nil => cases head
      | cons first rest =>
        obtain rfl : first = 0x8a := by simpa using head
        simp [frameOpCode, getOpCode, byteAt]
    rw [List.countP_cons, if_neg (by simp [Event.isCloseFrame, hpong, OpCode.value])]
    exact ih
  | @reply data head code reason =>
    have hclose : frameOpCode data = 8 := by
      cases data with
      | nil => cases head
      | cons first rest =>
        obtain rfl : first = 0x88 := by simpa using head
        simp [frameOpCode, getOpCode, byteAt]
    simp [Event.isCloseFrame, hclose, OpCode.value]
  | ended => rfl

/-- A batch reports CLOSE exactly when it sets `closing`, and then at its end. -/
theorem Batch.closes {closing closeSent closing' closeSent' : Bool} {es : List Event}
    (h : Batch closing closeSent es closing' closeSent') :
    closing.toNat + es.countP (·.isClose) = closing'.toNat ∧
      (closing = false → closing' = true → ∃ code reason, es.getLast? = some (.close code reason)) := by
  induction h with
  | nil closing closeSent =>
    refine ⟨rfl, fun h h' => ?_⟩
    cases h.symm.trans h'
  | message payload opCode _ ih =>
    refine ⟨by simpa [List.countP_cons, Event.isClose] using ih.1, fun h h' => ?_⟩
    obtain ⟨code, reason, hlast⟩ := ih.2 h h'
    exact ⟨code, reason, by rw [List.getLast?_cons, hlast]; rfl⟩
  | pong head _ ih =>
    refine ⟨by simpa [List.countP_cons, Event.isClose] using ih.1, fun h h' => ?_⟩
    obtain ⟨code, reason, hlast⟩ := ih.2 h h'
    exact ⟨code, reason, by rw [List.getLast?_cons, hlast]; rfl⟩
  | reply head code reason => exact ⟨rfl, fun _ _ => ⟨code, reason, rfl⟩⟩
  | ended code reason => exact ⟨rfl, fun _ _ => ⟨code, reason, rfl⟩⟩

/-- A closing session has sent its Close frame. -/
theorem Batch.closing_sent {closing closeSent closing' closeSent' : Bool} {es : List Event}
    (h : Batch closing closeSent es closing' closeSent') (hsent : closing = true → closeSent = true) :
    closing' = true → closeSent' = true := by
  induction h with
  | nil => exact hsent
  | message _ _ _ ih => exact ih (fun h => by cases h)
  | pong _ _ ih => exact ih (fun h => by cases h)
  | reply => exact fun _ => rfl
  | ended => exact fun _ => rfl

/-- The flags of a session account for what it has produced and reported. -/
structure Told (results : List SessionResult) (s : Session Z) : Prop where
  frames : producedCloseFrames results = s.closeSent.toNat
  closes : (reportedEvents results).countP (·.isClose) = s.closing.toNat
  last : s.closing = true → ∃ code reason,
    (reportedEvents results).getLast? = some (.close code reason)
  sent : s.closing = true → s.closeSent = true

theorem Told.create (negotiatedOptions serverMaxWindowBits maxPayload : ℕ)
    (context : Option (CompressionContext Z)) :
    Told [] (Session.create negotiatedOptions serverMaxWindowBits maxPayload context) := by
  have hflags : ∀ s : Session Z, s.closing = false → s.closeSent = false → Told [] s := by
    intro s hclosing hsent
    constructor
    · rw [hsent]
      rfl
    · rw [hclosing]
      rfl
    · intro h
      cases hclosing.symm.trans h
    · intro h
      cases hclosing.symm.trans h
  unfold Session.create
  split_ifs <;> exact hflags _ rfl rfl

/-- A call that reports nothing and leaves `closing` as it is. -/
theorem Told.quiet {results : List SessionResult} {s s' : Session Z} (h : Told results s)
    {result : SessionResult} (hreported : result.reported = [])
    (hclosing : s'.closing = s.closing)
    (hframes : s.closeSent.toNat + result.closeFrames = s'.closeSent.toNat)
    (hsent : s.closeSent = true → s'.closeSent = true) : Told (results ++ [result]) s' := by
  have hevents : reportedEvents (results ++ [result]) = reportedEvents results := by
    simp [reportedEvents, hreported]
  constructor
  · rw [← hframes, ← h.frames]
    simp [producedCloseFrames]
  · rw [hevents, hclosing]
    exact h.closes
  · rw [hevents, hclosing]
    exact h.last
  · rw [hclosing]
    exact fun hend => hsent (h.sent hend)

/-- A call of `consume` is accounted for. -/
theorem Told.consume {results : List SessionResult} {ws : StreamWebSocket Z}
    (h : Told results ws.session) (data : Bytes) :
    Told (results ++ [.events (ws.consume data).events]) (ws.consume data).session := by
  have hbatch := ws.consume_batch data
  obtain ⟨hcount, hlast⟩ := hbatch.closes
  have hevents : reportedEvents (results ++ [.events (ws.consume data).events]) =
      reportedEvents results ++ (ws.consume data).events := by
    simp [reportedEvents, SessionResult.reported]
  constructor
  · rw [← hbatch.closeFrames, ← h.frames]
    simp [producedCloseFrames, SessionResult.closeFrames]
  · rw [hevents, List.countP_append, h.closes, hcount]
  · intro hclosing'
    rw [hevents]
    cases hclosing : ws.session.closing with
    | true =>
      obtain ⟨code, reason, hend⟩ := h.last hclosing
      rw [hclosing] at hbatch
      rw [hbatch.of_closing.1, List.append_nil]
      exact ⟨code, reason, hend⟩
    | false =>
      obtain ⟨code, reason, hend⟩ := hlast hclosing hclosing'
      refine ⟨code, reason, ?_⟩
      rw [List.getLast?_append, hend]
      rfl
  · exact hbatch.closing_sent h.sent

namespace StreamWebSocket

theorem deflateMessage_flags (data : Bytes) (s : Session Z) :
    (s.deflateMessage data).2.closing = s.closing ∧
      (s.deflateMessage data).2.closeSent = s.closeSent := by
  unfold Session.deflateMessage
  simp only
  split
  · exact ⟨rfl, rfl⟩
  · split_ifs <;> exact ⟨rfl, rfl⟩

/-- `createFrame` leaves the closing state as it is. -/
theorem createFrame_flags (data : Bytes) (opCode : OpCode) (compress : Bool)
    (ws : StreamWebSocket Z) :
    (ws.createFrame data opCode compress).2.session.closing = ws.session.closing ∧
      (ws.createFrame data opCode compress).2.session.closeSent = ws.session.closeSent := by
  have hdeflate := deflateMessage_flags data ws.session
  unfold createFrame
  split_ifs
  · exact ⟨rfl, rfl⟩
  · exact ⟨rfl, rfl⟩
  · split <;> rename_i hresult <;> simpa only [hresult] using hdeflate
  · exact ⟨rfl, rfl⟩

/-- `createFrame` refuses once the session is closing or has sent its Close frame. -/
theorem createFrame_refused {ws : StreamWebSocket Z}
    (h : ws.session.closing = true ∨ ws.session.closeSent = true) (data : Bytes) (opCode : OpCode)
    (compress : Bool) : ws.createFrame data opCode compress = (none, ws) := by
  unfold createFrame
  rw [if_pos]
  tauto

/-- `createCloseFrame` refuses once the session is closing or has sent its Close frame. -/
theorem createCloseFrame_refused {ws : StreamWebSocket Z}
    (h : ws.session.closing = true ∨ ws.session.closeSent = true) (code : ℕ) (message : Bytes) :
    ws.createCloseFrame code message = (none, ws) := by
  unfold createCloseFrame
  rw [if_pos h]

/-- `consume` on a closing session only drops the events of the call before. -/
theorem consume_closing {ws : StreamWebSocket Z} (h : ws.session.closing = true) (data : Bytes) :
    ws.consume data = ws.prepare := by
  unfold consume
  simp only
  rw [if_pos]
  exact .inl h

end StreamWebSocket

open StreamWebSocket

/-- Every call is accounted for. -/
theorem Told.invoke {results : List SessionResult} {ws : StreamWebSocket Z}
    (h : Told results ws.session) (c : SessionCall Z) :
    Told (results ++ [(ws.invoke c).1]) (ws.invoke c).2.session := by
  cases c with
  | consume data => exact h.consume data
  | createFrame data opCode compress =>
    obtain ⟨hclosing, hsent⟩ := createFrame_flags data opCode compress ws
    refine h.quiet rfl hclosing ?_ (fun hs => hsent.trans hs)
    simp only [StreamWebSocket.invoke, hsent]
    rfl
  | createCloseFrame code message =>
    by_cases hended : ws.session.closing = true ∨ ws.session.closeSent = true
    · simp only [StreamWebSocket.invoke, createCloseFrame_refused hended]
      exact h.quiet rfl rfl rfl id
    · have hsent : ws.session.closeSent = false := by
        rw [Bool.eq_false_iff]
        exact fun hs => hended (.inr hs)
      simp only [StreamWebSocket.invoke, createCloseFrame, if_neg hended]
      refine h.quiet rfl rfl ?_ (fun _ => rfl)
      rw [hsent]
      rfl
  | contextUsed context => exact h.quiet rfl rfl rfl id

/-- Every sequence of calls is accounted for. -/
theorem Told.invokeAll {results : List SessionResult} {ws : StreamWebSocket Z}
    (h : Told results ws.session) (calls : List (SessionCall Z)) :
    Told (results ++ (ws.invokeAll calls).1) (ws.invokeAll calls).2.session := by
  induction calls generalizing results ws with
  | nil =>
    rw [StreamWebSocket.invokeAll, List.append_nil]
    exact h
  | cons first rest ih =>
    have hrest := ih (h.invoke first)
    rw [List.append_assoc] at hrest
    exact hrest

/-- A CLOSE event is the only one and the last of all events. -/
theorem Told.close_last {results : List SessionResult} {s : Session Z} (h : Told results s)
    {before after : List Event} {code : ℕ} {reason : Bytes}
    (hevents : reportedEvents results = before ++ .close code reason :: after) :
    after = [] ∧ ∀ e ∈ before, e.isClose = false := by
  have hcount := h.closes
  rw [hevents, List.countP_append, List.countP_cons_of_pos rfl] at hcount
  have hone := Bool.toNat_le s.closing
  have hbefore : before.countP (·.isClose) = 0 := by omega
  have hafter : after.countP (·.isClose) = 0 := by omega
  have hclosing : s.closing = true := by
    cases hs : s.closing with
    | true => rfl
    | false =>
      rw [hs] at hcount
      simp at hcount
  constructor
  · obtain ⟨code', reason', hlast⟩ := h.last hclosing
    rw [hevents, List.getLast?_append_of_ne_nil _ (List.cons_ne_nil _ _), List.getLast?_cons] at hlast
    by_contra hne
    rw [List.getLast?_eq_some_getLast hne] at hlast
    have hmem := List.getLast_mem hne
    rw [show after.getLast hne = .close code' reason' by simpa using hlast] at hmem
    exact absurd rfl (List.countP_eq_zero.mp hafter _ hmem)
  · intro e he
    simpa using List.countP_eq_zero.mp hbefore e he

/-- A session whose CLOSE event has been reported is closing. -/
theorem Told.closing_of_reported {results : List SessionResult} {s : Session Z}
    (h : Told results s) {code : ℕ} {reason : Bytes}
    (hreported : .close code reason ∈ reportedEvents results) : s.closing = true := by
  have hpos : 0 < (reportedEvents results).countP (·.isClose) :=
    List.countP_pos_iff.mpr ⟨_, hreported, rfl⟩
  rw [h.closes] at hpos
  cases hs : s.closing with
  | true => rfl
  | false =>
    rw [hs] at hpos
    cases hpos

/-- The closing state of a session is final: over any sequence of calls there is at
most one Close frame and at most one CLOSE event, which is the last event and comes
no earlier than the Close frame; after CLOSE `consume` does nothing, and after the
Close frame no other frame is created. -/
theorem close_state_terminal (negotiatedOptions serverMaxWindowBits maxPayload : ℕ)
    (context : Option (CompressionContext Z)) (calls : List (SessionCall Z)) :
    let r := (StreamWebSocket.create negotiatedOptions serverMaxWindowBits maxPayload
      context).invokeAll calls
    producedCloseFrames r.1 ≤ 1 ∧
    (reportedEvents r.1).countP (·.isClose) ≤ 1 ∧
    (∀ before code reason after,
      reportedEvents r.1 = before ++ .close code reason :: after → after = []) ∧
    (∀ code reason, .close code reason ∈ reportedEvents r.1 →
      producedCloseFrames r.1 = 1 ∧ ∀ data, (r.2.consume data).events = [] ∧
        (r.2.consume data).parser = r.2.parser ∧
        (r.2.consume data).session = { r.2.session with events := [], failureCode := 1002 }) ∧
    (producedCloseFrames r.1 = 1 ∨ r.2.session.closing = true →
      (∀ data opCode compress, r.2.createFrame data opCode compress = (none, r.2)) ∧
        ∀ code message, r.2.createCloseFrame code message = (none, r.2)) := by
  intro r
  have hfresh : Told [] (StreamWebSocket.create negotiatedOptions serverMaxWindowBits maxPayload
      context).session := Told.create negotiatedOptions serverMaxWindowBits maxPayload context
  have h : Told r.1 r.2.session := hfresh.invokeAll calls
  refine ⟨?_, ?_, ?_, ?_, ?_⟩
  · rw [h.frames]
    exact Bool.toNat_le _
  · rw [h.closes]
    exact Bool.toNat_le _
  · intro before code reason after hevents
    exact (h.close_last hevents).1
  · intro code reason hreported
    have hclosing := h.closing_of_reported hreported
    refine ⟨by rw [h.frames, h.sent hclosing]; rfl, fun data => ?_⟩
    rw [consume_closing hclosing data]
    exact ⟨rfl, rfl, rfl⟩
  · intro hended
    have hflags : r.2.session.closing = true ∨ r.2.session.closeSent = true := by
      rcases hended with hproduced | hclosing
      · right
        rw [h.frames] at hproduced
        cases hs : r.2.session.closeSent with
        | true => rfl
        | false =>
          rw [hs] at hproduced
          cases hproduced
      · exact .inl hclosing
    exact ⟨fun data opCode compress => createFrame_refused hflags data opCode compress,
      fun code message => createCloseFrame_refused hflags code message⟩

end Eiows
