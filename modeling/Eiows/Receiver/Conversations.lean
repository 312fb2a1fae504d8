import Eiows.Receiver.Chunks
import Eiows.Receiver.ClientFrames

/-!
# Conversations

A client sends messages in any number of fragments, with Ping and Pong frames
between any two frames. The session reports every message once, in order of
completion, and answers every Ping.
-/

namespace Eiows

/-- A Ping or Pong frame between the frames of a client. -/
structure Interjection where
  ping : Bool
  key : Mask
  payload : Bytes
  short : payload.length ≤ 125

/-- A piece of the wire payload of a message, with its masking key. -/
structure Fragment where
  key : Mask
  payload : Bytes
  length_lt : payload.length < 2 ^ 63

/-- A client message: the frames before it, its first fragment, and every
further fragment with the frames before that. -/
structure ClientMessage where
  opCode : OpCode
  isMessage : opCode = .text ∨ opCode = .binary
  compressed : Bool
  before : List Interjection
  first : Fragment
  rest : List (List Interjection × Fragment)

/-- The frame of a Ping or Pong. -/
def Interjection.frame (i : Interjection) : ClientFrame where
  fin := true
  rsv1 := false
  opCode := if i.ping then .ping else .pong
  key := i.key
  payload := i.payload
  control := fun _ => ⟨rfl, i.short⟩
  length_lt := i.short.trans_lt (by decide)

/-- A Ping is answered by an unmasked Pong with its payload. -/
def Interjection.answer (i : Interjection) : List Event :=
  if i.ping then [.frame (0x8a :: UInt8.ofNat i.payload.length :: i.payload)] else []

/-- The first frame of a message, in one or more fragments. -/
def ClientMessage.firstFrame (m : ClientMessage) : ClientFrame where
  fin := m.rest.isEmpty
  rsv1 := m.compressed
  opCode := m.opCode
  key := m.first.key
  payload := m.first.payload
  control := fun h => by
    rcases m.isMessage with hm | hm <;> simp [hm, OpCode.isControl, OpCode.value] at h
  length_lt := m.first.length_lt

/-- A continuation frame. -/
def Fragment.frame (fragment : Fragment) (fin : Bool) : ClientFrame where
  fin := fin
  rsv1 := false
  opCode := .none
  key := fragment.key
  payload := fragment.payload
  control := fun h => by simp [OpCode.isControl, OpCode.value] at h
  length_lt := fragment.length_lt

/-- The frames after the first one. -/
def continuations : List (List Interjection × Fragment) → List ClientFrame
  | [] => []
  | (interjections, fragment) :: rest =>
    interjections.map Interjection.frame ++ fragment.frame rest.isEmpty :: continuations rest

namespace ClientMessage

/-- All frames of a message. -/
def frames (m : ClientMessage) : List ClientFrame :=
  m.before.map Interjection.frame ++ m.firstFrame :: continuations m.rest

/-- The payload on the wire, compressed or not. -/
def wire (m : ClientMessage) : Bytes :=
  m.first.payload ++ m.rest.flatMap (fun r => r.2.payload)

/-- The events of a message with the given content. -/
def events (m : ClientMessage) (content : Bytes) : List Event :=
  m.before.flatMap Interjection.answer ++
    m.rest.flatMap (fun r => r.1.flatMap Interjection.answer) ++ [.message content m.opCode]

end ClientMessage

/-- What a client may send: every message within the limits of the session, text
in UTF-8, and a compressed message such that it can be inflated. The state is
the inflate stream; each message comes with its content. -/
inductive Conversation (Z : Zlib) (options maxPayload : ℕ) :
    Option Z.Inflate → List (ClientMessage × Bytes) → Prop
  | nil (stream : Option Z.Inflate) : Conversation Z options maxPayload stream []
  | plain {stream : Option Z.Inflate} {m : ClientMessage} {rest : List (ClientMessage × Bytes)}
      (compressed : m.compressed = false)
      (fits : (maxPayload ≠ 0 → m.wire.length ≤ maxPayload) ∧ m.wire.length ≤ unsignedMax)
      (text : m.opCode = .text → WellFormedUtf8 m.wire)
      (continues : Conversation Z options maxPayload stream rest) :
      Conversation Z options maxPayload stream ((m, m.wire) :: rest)
  | compressed {stream stream' : Option Z.Inflate} {m : ClientMessage} {content : Bytes}
      {rest : List (ClientMessage × Bytes)} (compressed : m.compressed = true)
      (negotiated : hasOption options PERMESSAGE_DEFLATE = true)
      (fits : (maxPayload ≠ 0 → m.wire.length ≤ maxPayload) ∧ m.wire.length ≤ unsignedMax)
      (inflates : Z.inflateMessage stream m.wire maxPayload
        (hasOption options CLIENT_NO_CONTEXT_TAKEOVER) = (.success, content, stream'))
      (text : m.opCode = .text → WellFormedUtf8 content)
      (continues : Conversation Z options maxPayload stream' rest) :
      Conversation Z options maxPayload stream ((m, content) :: rest)

namespace Receiver

variable {Z : Zlib} {r : Receiver Z}

theorem accepts_interjection (i : Interjection) (hopen : r.closing = false) :
    r.Accepts [i.frame] r i.answer := by
  have hopCode : i.frame.opCode = .ping ∨ i.frame.opCode = .pong := by
    obtain ⟨ping, key, payload, hshort⟩ := i
    cases ping <;> simp [Interjection.frame]
  have hanswer : i.frame.answer = i.answer := by
    obtain ⟨ping, key, payload, hshort⟩ := i
    cases ping <;> rfl
  rw [← hanswer]
  exact accepts_control hopen hopCode rfl

theorem accepts_interjections (is : List Interjection) (hopen : r.closing = false) :
    r.Accepts (is.map Interjection.frame) r (is.flatMap Interjection.answer) := by
  induction is with
  | nil => exact .nil r
  | cons i is ih => exact (accepts_interjection i hopen).append ih

/-- The header of a fragment in sequence, within the limit, is accepted. -/
theorem judgeHeader_fragment (fragment : Fragment) (fin : Bool) (hmessage : r.message.isSome = true)
    (hlimit : r.data.length + fragment.payload.length ≤ payloadLimit r.maxPayload) :
    r.judgeHeader (fragment.frame fin).header = none := by
  refine judgeHeader_eq_none.mpr ⟨(fragment.frame fin).header_malformed, rfl, ?_, ?_⟩
  · simp [outOfSequence, ClientFrame.header, Fragment.frame, OpCode.value, hmessage,
      Option.isNone_eq_false_iff]
  · simp only [tooLong, FrameHeader.isData, ClientFrame.header, Fragment.frame, OpCode.value]
    split_ifs <;> simp <;> omega

/-- The remaining fragments of a message complete it. -/
theorem accepts_continuations {opCode : OpCode} {rest : List (List Interjection × Fragment)}
    {completed : Receiver Z × List Event} (hrest : rest ≠ []) (hopen : r.closing = false)
    (hsent : r.closeSent = false) (hmessage : r.message = some opCode)
    (hlimit : r.data.length + (rest.flatMap (fun r => r.2.payload)).length ≤
      payloadLimit r.maxPayload)
    (hcompleted : ({ r with message := none, data := [] } : Receiver Z).complete
      (r.data ++ rest.flatMap (fun r => r.2.payload)) opCode = completed) :
    r.Accepts (continuations rest) completed.1
      (rest.flatMap (fun r => r.1.flatMap Interjection.answer) ++ completed.2) := by
  induction rest generalizing r with
  | nil => exact absurd rfl hrest
  | cons head rest ih =>
    obtain ⟨interjections, fragment⟩ := head
    simp only [List.flatMap_cons, List.length_append] at hlimit hcompleted ⊢
    have hok : r.judgeHeader (fragment.frame rest.isEmpty).header = none :=
      judgeHeader_fragment fragment _ (by rw [hmessage]; rfl) (by omega)
    have hopCode : r.messageOpCode (fragment.frame rest.isEmpty).header = opCode := by
      simp [messageOpCode, ClientFrame.header, Fragment.frame, OpCode.value, hmessage]
    rw [continuations, List.append_assoc]
    refine (accepts_interjections interjections hopen).append ?_
    by_cases hlast : rest = []
    · rw [hlast] at hok hopCode hcompleted ⊢
      simp only [List.flatMap_nil, List.append_nil] at hcompleted
      have hdelivered : r.deliver (fragment.frame true).header (fragment.frame true).payload =
          completed := by
        rw [deliver_last (fragment.frame true).payload rfl hsent rfl, ← hcompleted, ← hopCode]
        rfl
      have haccepts := Accepts.cons hopen hok hdelivered (.nil completed.1)
      rwa [List.append_nil] at haccepts
    · have hfin : rest.isEmpty = false := by simpa using hlast
      rw [hfin] at hok hopCode ⊢
      have hdelivered := deliver_more (r := r) (h := (fragment.frame false).header)
        fragment.payload rfl hsent rfl
      rw [hopCode] at hdelivered
      have hcollected := ih (r := (r.deliver (fragment.frame false).header fragment.payload).1)
        hlast (by rw [hdelivered]; exact hopen) (by rw [hdelivered]; exact hsent)
        (by rw [hdelivered]) (by simp only [hdelivered, List.length_append]; omega)
        (by rw [hdelivered, List.append_assoc]; exact hcompleted)
      rw [hdelivered] at hcollected
      have haccepts := Accepts.cons hopen hok hdelivered hcollected
      exact haccepts

/-- An open receiver between messages, with the given inflate stream. -/
structure Ready (r : Receiver Z) (options maxPayload : ℕ) (stream : Option Z.Inflate) : Prop where
  receiverOpen : r.closing = false
  notSent : r.closeSent = false
  message : r.message = none
  data : r.data = []
  compression : r.compression =
    if hasOption options PERMESSAGE_DEFLATE then .enabled else .disabled
  inflater : hasOption options PERMESSAGE_DEFLATE = true → r.inflater = some stream
  options_eq : r.options = options
  maxPayload_eq : r.maxPayload = maxPayload

/-- The frames of a message are accepted, and complete its payload. -/
theorem accepts_message {options maxPayload : ℕ} {stream : Option Z.Inflate} (m : ClientMessage)
    (hr : r.Ready options maxPayload stream)
    (hcompressed : m.compressed = true → hasOption options PERMESSAGE_DEFLATE = true)
    (hlimit : m.wire.length ≤ payloadLimit maxPayload) {completed : Receiver Z × List Event}
    (hcompleted : ({ r with
        compression := if m.compressed then .compressedFrame else r.compression
        message := none
        data := [] } : Receiver Z).complete m.wire m.opCode = completed) :
    r.Accepts m.frames completed.1 (m.before.flatMap Interjection.answer ++
      m.rest.flatMap (fun r => r.1.flatMap Interjection.answer) ++ completed.2) := by
  have hnibble : m.firstFrame.header.nibble = 1 ∨ m.firstFrame.header.nibble = 2 :=
    m.isMessage.imp (congrArg OpCode.value) (congrArg OpCode.value)
  have hdata : m.firstFrame.header.isData = true := by
    rcases hnibble with h | h <;> rw [FrameHeader.isData, h] <;> rfl
  have hnonzero : m.firstFrame.header.nibble ≠ 0 := by omega
  have hopCode : r.messageOpCode m.firstFrame.header = m.opCode := by
    rw [messageOpCode, if_neg hnonzero]
    exact OpCode.ofNibble_value _
  have hwire : m.wire.length = m.first.payload.length +
      (m.rest.flatMap (fun r => r.2.payload)).length := by
    rw [ClientMessage.wire, List.length_append]
  have hok : r.judgeHeader m.firstFrame.header = none := by
    refine judgeHeader_eq_none.mpr ⟨m.firstFrame.header_malformed, ?_, ?_, ?_⟩
    · cases hm : m.compressed with
      | false => simp [badCompression, ClientFrame.header, ClientMessage.firstFrame, hm]
      | true =>
        have henabled := hr.compression
        rw [if_pos (hcompressed hm)] at henabled
        simp [badCompression, hdata, hnonzero, henabled]
    · simp [outOfSequence, hr.message, hnonzero]
    · simp only [tooLong, hdata, hr.notSent, hr.data, hr.maxPayload_eq, Bool.true_and,
        Bool.false_eq_true, if_false, List.length_nil, Nat.zero_add, decide_eq_false_iff_not]
      exact Nat.not_lt.mpr (by simp only [ClientFrame.header, ClientMessage.firstFrame]; omega)
  rw [ClientMessage.frames, List.append_assoc]
  refine (accepts_interjections m.before hr.receiverOpen).append ?_
  by_cases hrest : m.rest = []
  · have hdelivered : r.deliver m.firstFrame.header m.firstFrame.payload = completed := by
      rw [deliver_last _ hdata hr.notSent (by simp [ClientFrame.header, ClientMessage.firstFrame,
        hrest]), hopCode, ← hcompleted, ClientMessage.wire, hrest, hr.data]
      simp only [List.flatMap_nil, List.append_nil, List.nil_append]
      rfl
    have haccepts := Accepts.cons hr.receiverOpen hok hdelivered (.nil completed.1)
    rw [List.append_nil] at haccepts
    rw [hrest]
    exact haccepts
  · have hdelivered := deliver_more (r := r) (h := m.firstFrame.header) m.first.payload hdata
      hr.notSent (by simpa [ClientFrame.header, ClientMessage.firstFrame] using hrest)
    rw [hopCode, hr.data, List.nil_append] at hdelivered
    have hcompletes : ({ (r.deliver m.firstFrame.header m.first.payload).1 with
        message := none, data := [] } : Receiver Z).complete
        ((r.deliver m.firstFrame.header m.first.payload).1.data ++
          m.rest.flatMap (fun r => r.2.payload)) m.opCode = completed := by
      rw [hdelivered]
      exact hcompleted
    have hcollected := accepts_continuations hrest (by rw [hdelivered]; exact hr.receiverOpen)
      (by rw [hdelivered]; exact hr.notSent) (by rw [hdelivered])
      (by simp only [hdelivered, hr.maxPayload_eq]; omega) hcompletes
    rw [hdelivered] at hcollected
    have haccepts := Accepts.cons hr.receiverOpen hok hdelivered hcollected
    exact haccepts

/-- The messages of a conversation are accepted and reported with their content. -/
theorem accepts_conversation {options maxPayload : ℕ} {stream : Option Z.Inflate}
    {script : List (ClientMessage × Bytes)}
    (hscript : Conversation Z options maxPayload stream script)
    (hr : r.Ready options maxPayload stream) :
    ∃ r', r.Accepts (script.flatMap (fun m => m.1.frames)) r'
        (script.flatMap (fun m => m.1.events m.2)) ∧ ∃ stream', r'.Ready options maxPayload stream' := by
  induction hscript generalizing r with
  | nil stream => exact ⟨r, .nil r, stream, hr⟩
  | @plain stream m rest hplain hfits htext _ ih =>
    have hlimit : m.wire.length ≤ payloadLimit maxPayload :=
      Nat.le_of_not_lt (payloadLimit_lt.not.mpr (by omega))
    have hcompleted : ({ r with
        compression := if m.compressed then .compressedFrame else r.compression
        message := none
        data := [] } : Receiver Z).complete m.wire m.opCode =
          ({ r with message := none, data := [] }, [.message m.wire m.opCode]) := by
      have hcompression : r.compression ≠ .compressedFrame := by
        rw [hr.compression]
        split_ifs <;> decide
      rw [hplain, complete, if_neg (by simpa using hcompression), report_of_valid htext]
      rfl
    have hmessage := accepts_message m hr (by simp [hplain]) hlimit hcompleted
    obtain ⟨r', hrest, hready⟩ := ih (r := { r with message := none, data := [] })
      { hr with message := rfl, data := rfl }
    refine ⟨r', ?_, hready⟩
    rw [List.flatMap_cons, List.flatMap_cons]
    exact hmessage.append hrest
  | @compressed stream stream' m content rest hcompressed hnegotiated hfits hinflates htext _ ih =>
    have hlimit : m.wire.length ≤ payloadLimit maxPayload :=
      Nat.le_of_not_lt (payloadLimit_lt.not.mpr (by omega))
    have hcompleted : ({ r with
        compression := if m.compressed then .compressedFrame else r.compression
        message := none
        data := [] } : Receiver Z).complete m.wire m.opCode =
          ({ r with
            compression := .enabled
            message := none
            data := []
            inflater := some stream' }, [.message content m.opCode]) := by
      simp only [complete, hcompressed, if_true, inflate, hr.inflater hnegotiated, hr.options_eq,
        hr.maxPayload_eq, hinflates, ne_eq, not_true_eq_false, if_false]
      exact report_of_valid htext
    have hmessage := accepts_message m hr (fun _ => hnegotiated) hlimit hcompleted
    obtain ⟨r', hrest, hready⟩ := ih
      (r := { r with
        compression := .enabled
        message := none
        data := []
        inflater := some stream' })
      { hr with
        message := rfl
        data := rfl
        compression := by rw [if_pos hnegotiated]
        inflater := fun _ => rfl }
    refine ⟨r', ?_, hready⟩
    rw [List.flatMap_cons, List.flatMap_cons]
    exact hmessage.append hrest

end Receiver

/-- The inflate stream of a fresh session. -/
def initialStream {Z : Zlib} (options : ℕ) (compressionContext : Option (CompressionContext Z)) :
    Option Z.Inflate :=
  if hasOption options CLIENT_NO_CONTEXT_TAKEOVER then (compressionContext.getD {}).inflationStream
  else none

/-- All frames of a conversation, with the Ping and Pong frames after the last message. -/
def conversationFrames (script : List (ClientMessage × Bytes)) (after : List Interjection) :
    List ClientFrame :=
  script.flatMap (fun m => m.1.frames) ++ after.map Interjection.frame

/-- All events of a conversation. -/
def conversationEvents (script : List (ClientMessage × Bytes)) (after : List Interjection) :
    List Event :=
  script.flatMap (fun m => m.1.events m.2) ++ after.flatMap Interjection.answer

theorem Receiver.create_ready {Z : Zlib} (options maxPayload : ℕ)
    (compressionContext : Option (CompressionContext Z)) :
    (Receiver.create options maxPayload compressionContext).Ready options maxPayload
      (initialStream options compressionContext) where
  receiverOpen := rfl
  notSent := rfl
  message := rfl
  data := rfl
  compression := rfl
  inflater := by
    intro hnegotiated
    simp only [Receiver.create, initialStream, hnegotiated, if_true]
    split_ifs <;> rfl
  options_eq := rfl
  maxPayload_eq := rfl

/-- **Decoding undoes client encoding.** A conversation within the limits, fed to
a fresh session in any chunks, is reported message by message, and leaves the
session open. -/
theorem consumeAll_conversation {Z : Zlib} (options serverMaxWindowBits maxPayload : ℕ)
    (compressionContext : Option (CompressionContext Z)) (script : List (ClientMessage × Bytes))
    (after : List Interjection)
    (hscript : Conversation Z options maxPayload (initialStream options compressionContext) script)
    (chunks : List Bytes)
    (hinput : chunks.flatten = ClientFrame.encodeAll (conversationFrames script after))
    (hchunks : ∀ chunk ∈ chunks, chunk.length < 2 ^ 31) :
    let run := (StreamWebSocket.create options serverMaxWindowBits maxPayload
      compressionContext).consumeAll chunks
    run.2 = conversationEvents script after ∧ run.1.session.closing = false ∧
      run.1.session.closeSent = false := by
  obtain ⟨r, haccepts, stream, hready⟩ :=
    Receiver.accepts_conversation hscript (Receiver.create_ready options maxPayload _)
  have hall := haccepts.append (Receiver.accepts_interjections after hready.receiverOpen)
  have hdrain := hall.drain []
  have hidle : (Receiver.decoder Z).next r [] = none :=
    Receiver.next_of_incomplete (by simp [parseHeader, shortMessageHeader])
  rw [List.append_nil, (Receiver.decoder Z).drain_of_next_none hidle, List.append_nil] at hdrain
  obtain ⟨htracks, hevents⟩ := StreamWebSocket.consumeAll_create options serverMaxWindowBits
    maxPayload compressionContext chunks hchunks
  rw [hinput, conversationFrames, hdrain] at htracks hevents
  exact ⟨hevents, htracks.closing.1.trans hready.receiverOpen,
    htracks.closing.2.trans hready.notSent⟩

/-- The compressed letter, with a Ping between its two fragments. -/
def letterMessage : ClientMessage where
  opCode := .text
  isMessage := .inl rfl
  compressed := true
  before := []
  first := ⟨#v[1, 2, 3, 4], [0x4a], by decide⟩
  rest := [([⟨true, #v[5, 6, 7, 8], [0x21], by decide⟩], ⟨#v[9, 10, 11, 12], [0x04, 0x00], by decide⟩)]

theorem sample_inflateMessage {maxPayload : ℕ} (h : 1 ≤ maxPayload) :
    Zlib.sample.inflateMessage none letterMessage.wire maxPayload false =
      (.success, [0x61], some true) := by
  have hstep : Zlib.sample.inflateStepWith zlibChunkSize maxPayload false
      (letterMessage.wire ++ deflateTrailer) [] = .done .success [0x61] (some true) := by
    have hresult : Zlib.sample.inflate false (letterMessage.wire ++ deflateTrailer) zlibChunkSize =
        { status := .ok, consumed := 7, output := [0x61], stream := true } := rfl
    have hlimit : ¬(maxPayload ≠ 0 ∧ maxPayload < 1) := by omega
    simp only [Zlib.inflateStepWith, hresult, List.length_nil, List.length_singleton, Nat.zero_add,
      hlimit, and_false, if_false]
    rfl
  rw [Zlib.sample.inflateMessage_takeover (z := false) rfl (by decide)]
  exact Zlib.sample.inflateLoopWith_done hstep

/-- The letter is reported after the answer to the Ping. -/
theorem consumeAll_conversation_letter :
    let run := (StreamWebSocket.create (Z := Zlib.sample) PERMESSAGE_DEFLATE 15 3 none).consumeAll
      [(ClientFrame.encodeAll (conversationFrames [(letterMessage, [0x61])] [])).take 9,
        (ClientFrame.encodeAll (conversationFrames [(letterMessage, [0x61])] [])).drop 9]
    run.2 = conversationEvents [(letterMessage, [0x61])] [] ∧
      run.1.session.closing = false ∧ run.1.session.closeSent = false :=
  consumeAll_conversation PERMESSAGE_DEFLATE 15 3 none [(letterMessage, [0x61])] []
    (.compressed rfl (by decide) (by decide) (sample_inflateMessage (by decide))
      (fun _ => .ascii (by decide) .nil) (.nil _))
    _ (by decide) (by decide)

/-- A compressed message can be longer on the wire than its content. The letter
is within a limit of one byte, and its frames are not. -/
theorem letterMessage_refused :
    Zlib.sample.inflateMessage none letterMessage.wire 1 false = (.success, [0x61], some true) ∧
      ((StreamWebSocket.create (Z := Zlib.sample) PERMESSAGE_DEFLATE 15 1 none).consumeAll
        [ClientFrame.encodeAll (conversationFrames [(letterMessage, [0x61])] [])]).2 =
        [.frame (formatFrame [0x21] .pong false), .frame (formatClose 1009 []), .close 1006 []] ∧
      conversationEvents [(letterMessage, [0x61])] [] =
        [.frame (formatFrame [0x21] .pong false), .message [0x61] .text] := by
  refine ⟨sample_inflateMessage le_rfl, ?_, by decide⟩
  have hrun := (StreamWebSocket.consumeAll_create (Z := Zlib.sample) PERMESSAGE_DEFLATE 15 1 none
    [ClientFrame.encodeAll (conversationFrames [(letterMessage, [0x61])] [])] (by decide)).2
  let fresh : Receiver Zlib.sample := Receiver.create PERMESSAGE_DEFLATE 1 none
  let inside : Receiver Zlib.sample :=
    { fresh with message := some .text, data := [0x4a], compression := .compressedFrame }
  have hfirst : (Receiver.decoder Zlib.sample).next fresh
      (ClientFrame.encodeAll (conversationFrames [(letterMessage, [0x61])] [])) =
        some (inside, [], 7) := rfl
  have hping : (Receiver.decoder Zlib.sample).next inside
      ((ClientFrame.encodeAll (conversationFrames [(letterMessage, [0x61])] [])).drop 7) =
        some (inside, [.frame (formatFrame [0x21] .pong false)], 7) := rfl
  have hlast : (Receiver.decoder Zlib.sample).next inside
      (((ClientFrame.encodeAll (conversationFrames [(letterMessage, [0x61])] [])).drop 7).drop 7) =
        some ((inside.refuse 1009).1, (inside.refuse 1009).2, 6) := rfl
  rw [hrun, List.flatten_singleton, (Receiver.decoder _).drain_of_next hfirst,
    (Receiver.decoder _).drain_of_next hping, (Receiver.decoder _).drain_of_next hlast,
    Receiver.drain_of_closing rfl]
  rfl

end Eiows
