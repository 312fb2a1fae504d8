import Eiows.Receiver.Chunks
import Eiows.Receiver.ClientFrames
import Eiows.Receiver.Grammar

/-!
# The closing handshake

After a local Close frame the session ignores data and waits for the Close
frame of the peer. Ignored data frames still pass the header checks, and RSV1
is remembered there. This file determines exactly when the peer's Close frame
is reached.
-/

namespace Eiows

variable {Z : Zlib}

/-- A call of the parser: a chunk from the peer, or an outgoing message. -/
inductive Call where
  | receive (chunk : Bytes)
  | send (data : Bytes) (opCode : OpCode) (compress : Bool)

/-- The bytes received by a list of calls, chunk by chunk. -/
def Call.received : List Call → List Bytes
  | [] => []
  | .receive chunk :: calls => chunk :: received calls
  | .send .. :: calls => received calls

/-- One call, with the events it leaves. -/
def StreamWebSocket.call (ws : StreamWebSocket Z) : Call → StreamWebSocket Z × List Event
  | .receive chunk => ws.step chunk
  | .send data opCode compress => ((ws.createFrame data opCode compress).2, [])

/-- Successive calls, with the events of all of them. -/
def StreamWebSocket.callAll (ws : StreamWebSocket Z) : List Call → StreamWebSocket Z × List Event
  | [] => (ws, [])
  | call :: calls => (((ws.call call).1.callAll calls).1,
      (ws.call call).2 ++ ((ws.call call).1.callAll calls).2)

/-- The frames of a peer besides Close frames. `inside` says whether a data
message is in progress. -/
inductive PeerFrames (deflate : Bool) : Bool → List ClientFrame → Prop
  | nil (inside : Bool) : PeerFrames deflate inside []
  | control {inside : Bool} {f : ClientFrame} {fs : List ClientFrame}
      (opCode : f.opCode = .ping ∨ f.opCode = .pong) (rsv1 : f.rsv1 = false)
      (rest : PeerFrames deflate inside fs) : PeerFrames deflate inside (f :: fs)
  | start {f : ClientFrame} {fs : List ClientFrame}
      (opCode : f.opCode = .text ∨ f.opCode = .binary) (rsv1 : f.rsv1 = true → deflate = true)
      (rest : PeerFrames deflate (!f.fin) fs) : PeerFrames deflate false (f :: fs)
  | continuation {f : ClientFrame} {fs : List ClientFrame} (opCode : f.opCode = .none)
      (rsv1 : f.rsv1 = false) (rest : PeerFrames deflate (!f.fin) fs) :
      PeerFrames deflate true (f :: fs)

namespace ClientFrame

/-- The frames that lie within the first `n` bytes, and the others. -/
def splitBytes : ℕ → List ClientFrame → List ClientFrame × List ClientFrame
  | _, [] => ([], [])
  | n, f :: fs =>
    if f.encode.length ≤ n then
      (f :: (splitBytes (n - f.encode.length) fs).1, (splitBytes (n - f.encode.length) fs).2)
    else ([], f :: fs)

/-- Whether a compressed message is in progress after a frame. -/
def openAfter (isOpen : Bool) (f : ClientFrame) : Bool :=
  if f.opCode.isControl then isOpen else !f.fin && (f.rsv1 || isOpen)

/-- Whether a compressed message is in progress after the frames. -/
def compressedOpen (fs : List ClientFrame) : Bool := fs.foldl openAfter false

/-- The compressed messages that are not complete once the frames `fs` have been
received and the frames `gs` have not. -/
def incompleteCompressed (fs gs : List ClientFrame) : ℕ :=
  (if compressedOpen fs then 1 else 0) + gs.countP (·.rsv1)

theorem splitBytes_append (n : ℕ) (fs : List ClientFrame) :
    (splitBytes n fs).1 ++ (splitBytes n fs).2 = fs := by
  induction fs generalizing n with
  | nil => rfl
  | cons f fs ih =>
    rw [splitBytes]
    split_ifs
    · rw [List.cons_append, ih]
    · rfl

/-- A further frame lies within the bytes only if all of them do. -/
theorem splitBytes_concat (n : ℕ) (fs : List ClientFrame) (g : ClientFrame) :
    splitBytes n (fs ++ [g]) = (fs ++ [g], []) ∨
      splitBytes n (fs ++ [g]) = ((splitBytes n fs).1, (splitBytes n fs).2 ++ [g]) := by
  induction fs generalizing n with
  | nil =>
    simp only [List.nil_append, splitBytes]
    split_ifs
    · exact .inl rfl
    · exact .inr rfl
  | cons f fs ih =>
    simp only [List.cons_append, splitBytes]
    split_ifs
    · rcases ih (n - f.encode.length) with h | h
      · exact .inl (by rw [h])
      · exact .inr (by rw [h])
    · exact .inr rfl

end ClientFrame

/-- Deflating touches the deflate streams only. -/
theorem Session.deflateMessage_spec (s : Session Z) (data : Bytes) :
    ∃ shared own, (s.deflateMessage data).2 =
        { s with sharedCompressionContext := shared, privateCompressionContext := own } ∧
      Session.inflater { s with
        sharedCompressionContext := shared, privateCompressionContext := own } = s.inflater := by
  unfold Session.deflateMessage
  by_cases htakeover : hasOption s.extensionOptions SERVER_NO_CONTEXT_TAKEOVER = true
  · cases hcontext : s.sharedCompressionContext with
    | none =>
      refine ⟨none, s.privateCompressionContext, ?_, by simp [Session.inflater, hcontext]⟩
      simp only [htakeover, if_true]
      rw [← hcontext]
    | some context =>
      refine ⟨some { context with deflationStream := (Z.deflateMessage context.deflationStream data
        s.serverMaxWindowBits true).2 }, s.privateCompressionContext, ?_, ?_⟩
      · simp only [htakeover, if_true]
      · simp only [Session.inflater, hcontext]
        split_ifs <;> rfl
  · cases hcontext : s.privateCompressionContext with
    | none =>
      refine ⟨s.sharedCompressionContext, none, ?_, by simp [Session.inflater, hcontext]⟩
      simp only [htakeover, Bool.false_eq_true, if_false]
      rw [← hcontext]
    | some context =>
      refine ⟨s.sharedCompressionContext, some { context with
        deflationStream := (Z.deflateMessage context.deflationStream data
          s.serverMaxWindowBits false).2 }, ?_, ?_⟩
      · simp only [htakeover, Bool.false_eq_true, if_false]
      · simp only [Session.inflater, hcontext]
        split_ifs <;> rfl

/-- The parser does not look at the contexts, apart from the inflate stream. -/
theorem Reads.contexts {w : WebSocketState} {s : Session Z} {r : Receiver Z} {pending : Bytes}
    (h : Reads w s r pending) (shared own : Option (CompressionContext Z))
    (hinflater : Session.inflater { s with
      sharedCompressionContext := shared, privateCompressionContext := own } = s.inflater) :
    Reads w { s with sharedCompressionContext := shared, privateCompressionContext := own } r
      pending := by
  cases h with
  | header hwants hspill hparse hw hs hr =>
    exact .header hwants hspill hparse hw { hs with inflater := hinflater.trans hs.inflater } hr
  | payload h hwants hspill hparse hok part hrest hproper hremaining hmask hw hs hr =>
    exact .payload h hwants hspill hparse hok part hrest hproper hremaining hmask hw
      { hs with inflater := hinflater.trans hs.inflater } hr

/-- Creating a frame does not change what the session reads. -/
theorem StreamWebSocket.createFrame_tracks {ws : StreamWebSocket Z} {st : Receiver Z × Bytes}
    (h : ws.Tracks st) (data : Bytes) (opCode : OpCode) (compress : Bool) :
    (ws.createFrame data opCode compress).2.Tracks st := by
  have hdeflate : ∀ ws' : StreamWebSocket Z,
      ws' = { ws with session := (ws.session.deflateMessage data).2 } → ws'.Tracks st := by
    rintro ws' rfl
    obtain ⟨shared, own, hresult, hinflater⟩ := ws.session.deflateMessage_spec data
    simp only [StreamWebSocket.Tracks, hresult]
    exact h.imp (fun hended => ⟨hended.session, hended.receiver, hended.closeSent⟩)
      (fun hreads => hreads.contexts _ _ hinflater)
  unfold StreamWebSocket.createFrame
  split_ifs
  · exact h
  · exact h
  · split <;> exact hdeflate _ (by simp_all)
  · exact h

/-- A local Close frame changes what the receiver makes of the data to come. -/
theorem Reads.closeSent {w : WebSocketState} {s : Session Z} {r : Receiver Z} {pending : Bytes}
    (h : Reads w s r pending) :
    Reads w { s with closeSent := true } { r with closeSent := true } pending := by
  cases h with
  | header hwants hspill hparse hw hs hr =>
    exact .header hwants hspill hparse ⟨hw.fragmentedMessage, hw.opStack, hw.opCode⟩
      { hs with closeSent := rfl, buffer := fun h => by cases h } hr
  | payload h hwants hspill hparse hok part hrest hproper hremaining hmask hw hs hr =>
    refine .payload h hwants hspill hparse ?_ part hrest hproper hremaining hmask
      ⟨hw.fragmentedMessage, hw.opStack, hw.current, hw.below, hw.lastFin⟩ { hs with
        closeSent := rfl
        data := fun hdata => ⟨(hs.data hdata).1, fun h => by cases h⟩
        control := fun hcontrol => ⟨(hs.control hcontrol).1, ?_⟩ } hr
    · obtain ⟨hvalid, hcompression, hsequence, hlimit⟩ := Receiver.judgeHeader_eq_none.mp hok
      refine Receiver.judgeHeader_eq_none.mpr ⟨hvalid, hcompression, hsequence, ?_⟩
      simp only [Receiver.tooLong, Bool.and_eq_false_iff, decide_eq_false_iff_not, if_true,
        Nat.zero_add] at hlimit ⊢
      refine hlimit.imp_right fun hle => ?_
      omega
    · obtain ⟨base, -, hbuffer⟩ := (hs.control hcontrol).2
      exact ⟨base, (fun h => by cases h), hbuffer⟩

/-- A successful call of `createCloseFrame` notes the Close frame. -/
theorem StreamWebSocket.createCloseFrame_tracks {ws ws' : StreamWebSocket Z} {r : Receiver Z}
    {pending message frame : Bytes} {code : ℕ} (h : ws.Tracks (r, pending))
    (hcreated : ws.createCloseFrame code message = (some frame, ws')) :
    r.closing = false ∧ r.closeSent = false ∧
      ws'.Tracks ({ r with closeSent := true }, pending) := by
  obtain ⟨hclosing, hsent⟩ := h.closing
  unfold StreamWebSocket.createCloseFrame at hcreated
  split_ifs at hcreated with hrefused
  · cases hcreated
  obtain ⟨hopen, hunsent⟩ := not_or.mp hrefused
  cases hcreated
  refine ⟨by simpa [hclosing] using hopen, by simpa [hsent] using hunsent, ?_⟩
  rcases h with hended | hreads
  · exact absurd hended.session hopen
  · exact .inr hreads.closeSent

/-- Over any calls the session follows the receiver on what it has received. -/
theorem StreamWebSocket.callAll_tracks {ws : StreamWebSocket Z} {st : Receiver Z × Bytes}
    (h : ws.Tracks st) {calls : List Call}
    (hchunks : ∀ chunk ∈ Call.received calls, chunk.length < 2 ^ 31) :
    (ws.callAll calls).1.Tracks ((Receiver.decoder Z).feedAll st (Call.received calls)).1 ∧
      (ws.callAll calls).2 = ((Receiver.decoder Z).feedAll st (Call.received calls)).2 := by
  induction calls generalizing ws st with
  | nil => exact ⟨h, rfl⟩
  | cons call calls ih =>
    cases call with
    | receive chunk =>
      obtain ⟨hnext, hevents⟩ := StreamWebSocket.step_tracks ws st chunk
        (hchunks chunk (by simp [Call.received])) h
      obtain ⟨hfinal, hrest⟩ := ih hnext (fun c hc => hchunks c (by simp [Call.received, hc]))
      exact ⟨hfinal, by simp only [StreamWebSocket.callAll, StreamWebSocket.call, Call.received,
        Streaming.Decoder.feedAll, hevents, hrest]⟩
    | send data opCode compress =>
      exact ih (StreamWebSocket.createFrame_tracks h data opCode compress) hchunks

/-- A receiver that is closed after reading has closed with the unit read last. -/
theorem Receiver.not_closing_of_drain {r r' r'' : Receiver Z} {src pending : Bytes}
    {es es' : List Event} {n : ℕ} (hnext : (decoder Z).next r src = some (r', es, n))
    (hdrain : (decoder Z).drain r src = (r'', pending, es')) (hopen : r''.closing = false) :
    r'.closing = false := by
  by_contra hclosed
  have hclosed : r'.closing = true := by simpa using hclosed
  rw [(decoder Z).drain_of_next hnext, drain_of_closing hclosed] at hdrain
  cases hdrain
  rw [hclosed] at hopen
  cases hopen

/-- A proper part of a client frame is kept, unless its header is refused. -/
theorem Receiver.next_part {r : Receiver Z} {f : ClientFrame} {part rest : Bytes}
    (hencode : part ++ rest = f.encode) (hrest : rest ≠ []) :
    (decoder Z).next r part = none ∨
      ∃ code n, (decoder Z).next r part = some ((r.refuse code).1, (r.refuse code).2, n) := by
  by_cases hopen : r.closing = false
  · cases hparse : parseHeader part with
    | none => exact .inl (next_of_incomplete hparse)
    | some h =>
      have hheader : h = f.header := by
        have hwhole := parseHeader_append rest hparse
        rw [hencode, ← List.append_nil f.encode, f.parseHeader_encode] at hwhole
        exact (Option.some.inj hwhole).symm
      cases hjudge : r.judgeHeader h with
      | some code => exact .inr ⟨code, h.size, next_of_refused hopen hparse hjudge⟩
      | none =>
        refine .inl (next_of_part hparse hjudge ?_)
        have hlength := congrArg List.length hencode
        have hpos := List.length_pos_iff.mpr hrest
        rw [List.length_append, f.length_encode] at hlength
        rw [hheader]
        simp only [ClientFrame.header] at hlength ⊢
        omega
  · exact .inl (by simp [decoder, next, hopen])

/-- An open receiver has read the frames that lie within its input, and keeps
what it has of the next one. -/
theorem Receiver.drain_prefix {r r' : Receiver Z} {pending input later : Bytes}
    {es : List Event} {fs : List ClientFrame} (hopen : r.closing = false)
    (hinput : input ++ later = ClientFrame.encodeAll fs)
    (hdrain : (decoder Z).drain r input = (r', pending, es)) (hopen' : r'.closing = false) :
    r.Accepts (ClientFrame.splitBytes input.length fs).1 r' es ∧
      pending ++ later = ClientFrame.encodeAll (ClientFrame.splitBytes input.length fs).2 := by
  induction fs generalizing r input es with
  | nil =>
    obtain ⟨rfl, rfl⟩ : input = [] ∧ later = [] := by
      simpa [ClientFrame.encodeAll] using hinput
    rw [(decoder Z).drain_of_next_none
      (next_of_incomplete (by simp [parseHeader, shortMessageHeader]))] at hdrain
    cases hdrain
    exact ⟨.nil _, rfl⟩
  | cons f fs ih =>
    have hinput : input ++ later = f.encode ++ ClientFrame.encodeAll fs := hinput
    by_cases hcomplete : f.encode.length ≤ input.length
    · obtain ⟨input', rfl⟩ : ∃ input', input = f.encode ++ input' :=
        List.prefix_of_prefix_length_le (List.prefix_append _ _)
          (hinput ▸ List.prefix_append input later) hcomplete |>.imp fun _ h => h.symm
      rw [List.append_assoc] at hinput
      have hinput' := List.append_cancel_left hinput
      have hsplit : (f.encode ++ input').length - f.encode.length = input'.length := by
        rw [List.length_append]
        omega
      rw [ClientFrame.splitBytes, if_pos hcomplete, hsplit]
      cases hjudge : r.judgeHeader f.header with
      | some code =>
        have hnext := next_of_refused hopen (f.parseHeader_encode input') hjudge
        have hfalse := not_closing_of_drain hnext hdrain hopen'
        cases hfalse
      | none =>
        have hnext := next_encode f input' hopen hjudge
        have hopen₁ := not_closing_of_drain hnext hdrain hopen'
        rw [drain_encode f input' hopen hjudge] at hdrain
        cases hdrain
        obtain ⟨haccepts, hlater⟩ := ih hopen₁ hinput' rfl
        exact ⟨.cons hopen hjudge rfl haccepts, hlater⟩
    · have hfront : input <+: f.encode :=
        List.prefix_of_prefix_length_le (hinput ▸ List.prefix_append input later)
          (List.prefix_append _ _) (by omega)
      obtain ⟨rest, hencode⟩ := hfront
      have hrest : rest ≠ [] := by
        rintro rfl
        rw [List.append_nil] at hencode
        exact hcomplete (by rw [hencode])
      rw [ClientFrame.splitBytes, if_neg hcomplete]
      rcases next_part (r := r) hencode hrest with hnext | ⟨code, n, hnext⟩
      · rw [(decoder Z).drain_of_next_none hnext] at hdrain
        cases hdrain
        exact ⟨.nil _, hinput⟩
      · have hfalse := not_closing_of_drain hnext hdrain hopen'
        cases hfalse

/-- A receiver during the closing handshake. -/
structure Receiver.AwaitsClose (r : Receiver Z) (deflate inside : Bool) : Prop where
  receiverOpen : r.closing = false
  sent : r.closeSent = true
  message : r.message.isSome = inside
  compression : deflate = true → r.compression ≠ .disabled

namespace Receiver

variable {r : Receiver Z} {deflate inside : Bool} {f : ClientFrame}

/-- The Close frame of the peer completes the handshake. -/
theorem drain_close {code : ℕ} {reason : Bytes} (hr : r.AwaitsClose deflate inside)
    (hopCode : f.opCode = .close) (hrsv : f.rsv1 = false)
    (hpayload : ValidClose f.payload code reason) :
    ((decoder Z).drain r (ClientFrame.encodeAll [f])).2.2 = [.close code reason] := by
  obtain ⟨hparse, hcode⟩ := hpayload.parse
  have hjudge := judgeHeader_control (r := r) (f := f) (by rw [hopCode]; rfl) hrsv
  have hdelivered : r.deliver f.header f.payload = r.deliverClose f.payload := by
    have hdata : f.header.isData = false := by rw [f.isData_header, hopCode]; rfl
    simp only [deliver, hdata, Bool.false_eq_true, if_false, deliverControl, f.opCode_header,
      hopCode, if_true]
  have hclosed : r.deliverClose f.payload =
      ({ r with closeSent := true, closing := true }, [.close code reason]) := by
    simp only [deliverClose, hparse, hcode, if_false, hr.sent, if_true, List.nil_append]
  rw [ClientFrame.encodeAll, List.flatMap_cons, List.flatMap_nil,
    drain_encode f [] hr.receiverOpen hjudge, hdelivered, hclosed, drain_of_closing rfl]
  rfl

/-- How a data frame is judged during the closing handshake. -/
theorem judgeHeader_ignored (hr : r.AwaitsClose deflate inside)
    (hdata : f.header.isData = true) (hsequence : r.outOfSequence f.header = false)
    (hrsv : f.rsv1 = true → f.header.nibble ≠ 0 ∧ deflate = true)
    (hfits : r.maxPayload ≠ 0 → f.payload.length ≤ r.maxPayload) :
    r.judgeHeader f.header =
      if f.rsv1 = true ∧ r.compression = .compressedFrame then some 1002
      else if unsignedMax < f.payload.length then some 1009 else none := by
  have hbad : r.badCompression f.header = true ↔
      f.rsv1 = true ∧ r.compression = .compressedFrame := by
    have hset : f.header.rsv1 = f.rsv1 := rfl
    constructor
    · intro hbad
      simp only [badCompression, hset, hdata, Bool.and_eq_true, Bool.or_eq_true, beq_iff_eq,
        Bool.not_true, Bool.false_eq_true, or_false, bne_iff_ne] at hbad
      obtain ⟨hrsv1, hbad⟩ := hbad
      obtain ⟨hnonzero, hdeflate⟩ := hrsv hrsv1
      refine ⟨hrsv1, ?_⟩
      have hnegotiated := hr.compression hdeflate
      have hdisabled := hbad.resolve_left hnonzero
      cases hcompression : r.compression <;> simp_all
    · rintro ⟨hrsv1, hcompressed⟩
      simp [badCompression, hset, hrsv1, hcompressed]
  have hlong : r.tooLong f.header = true ↔ unsignedMax < f.payload.length := by
    have hlength : f.header.length = f.payload.length := rfl
    simp only [tooLong, hdata, hr.sent, Bool.true_and, decide_eq_true_eq, if_true, Nat.zero_add,
      payloadLimit_lt, hlength]
    omega
  simp only [judgeHeader, f.header_malformed, hsequence, Bool.false_or, Bool.or_false, hbad, hlong]

/-- The compressed messages that would have to be told apart to ignore them. -/
def pendingCompressed (r : Receiver Z) (fs : List ClientFrame) : ℕ :=
  (if r.compression = .compressedFrame then 1 else 0) + fs.countP (·.rsv1)

/-- The property of the handshake, for the frames up to the Close frame of the
peer: every Ping is answered, and the Close frame is reported. -/
def CompletesHandshake (r : Receiver Z) (fs : List ClientFrame) (close : ClientFrame) (code : ℕ)
    (reason : Bytes) : Prop :=
  ((decoder Z).drain r (ClientFrame.encodeAll (fs ++ [close]))).2.2 =
    fs.flatMap ClientFrame.answer ++ [.close code reason]

/-- A refused header during the handshake is reported as an abnormal closure. -/
theorem not_completes_of_refused {fs : List ClientFrame} {close : ClientFrame} {code code' : ℕ}
    {reason : Bytes} (hr : r.AwaitsClose deflate inside) (hcode : code ≠ 1006)
    (hjudge : r.judgeHeader f.header = some code') : ¬r.CompletesHandshake (f :: fs) close code reason := by
  intro hcompletes
  have hnext := next_of_refused hr.receiverOpen
    (f.parseHeader_encode (ClientFrame.encodeAll (fs ++ [close]))) hjudge
  rw [CompletesHandshake, List.cons_append, ClientFrame.encodeAll, List.flatMap_cons,
    ← ClientFrame.encodeAll, (decoder Z).drain_of_next hnext, drain_of_closing rfl] at hcompletes
  simp only [refuse, hr.sent, if_true, List.nil_append, List.append_nil] at hcompletes
  have hmem : Event.close code reason ∈ [Event.close 1006 []] := by
    rw [hcompletes]
    exact List.mem_append_right _ (List.mem_singleton_self _)
  rw [List.mem_singleton] at hmem
  cases hmem
  exact hcode rfl

/-- An ignored data frame is refused, or followed in its shape. -/
theorem completes_data {fs : List ClientFrame} {close : ClientFrame} {code : ℕ} {reason : Bytes}
    (hr : r.AwaitsClose deflate inside) (hdata : f.header.isData = true)
    (hsequence : r.outOfSequence f.header = false)
    (hrsv : f.rsv1 = true → f.header.nibble ≠ 0 ∧ deflate = true)
    (hfits : r.maxPayload ≠ 0 → f.payload.length ≤ r.maxPayload) (hcode : code ≠ 1006)
    (ih : ∀ r' : Receiver Z, r'.AwaitsClose deflate (!f.fin) → r'.maxPayload = r.maxPayload →
      (r'.CompletesHandshake fs close code reason ↔
        r'.pendingCompressed fs ≤ 1 ∧ ∀ g ∈ fs, g.payload.length ≤ unsignedMax)) :
    r.CompletesHandshake (f :: fs) close code reason ↔
      r.pendingCompressed (f :: fs) ≤ 1 ∧ ∀ g ∈ f :: fs, g.payload.length ≤ unsignedMax := by
  have hjudge := judgeHeader_ignored hr hdata hsequence hrsv hfits
  by_cases hcompressed : f.rsv1 = true ∧ r.compression = .compressedFrame
  · rw [if_pos hcompressed] at hjudge
    refine iff_of_false (not_completes_of_refused hr hcode hjudge) fun hfew => ?_
    have htwo := hfew.1
    simp only [pendingCompressed, hcompressed.2, if_true, List.countP_cons, hcompressed.1] at htwo
    omega
  rw [if_neg hcompressed] at hjudge
  by_cases hlong : unsignedMax < f.payload.length
  · rw [if_pos hlong] at hjudge
    refine iff_of_false (not_completes_of_refused hr hcode hjudge) fun hfew => ?_
    have hshort := hfew.2 f (by simp)
    omega
  rw [if_neg hlong] at hjudge
  have hdelivered := deliver_ignored (r := r) f.payload hdata hr.sent
  have hanswer : f.answer = [] := by
    rw [ClientFrame.answer, if_neg]
    intro hping
    rw [f.isData_header, hping] at hdata
    cases hdata
  let r' : Receiver Z := { r with
    compression := r.compressionIn f.header
    message := if f.header.fin then none else some (r.messageOpCode f.header) }
  have hr' : r'.AwaitsClose deflate (!f.fin) := by
    refine ⟨hr.receiverOpen, hr.sent, ?_, fun hdeflate => ?_⟩
    · have hfin : f.header.fin = f.fin := rfl
      simp only [r', hfin]
      by_cases hlast : f.fin = true <;> simp [hlast]
    · simp only [r', compressionIn]
      split_ifs
      · decide
      · exact hr.compression hdeflate
  have hpending : r'.pendingCompressed fs = r.pendingCompressed (f :: fs) := by
    have hset : f.header.rsv1 = f.rsv1 := rfl
    simp only [pendingCompressed, r', compressionIn, hset, List.countP_cons]
    cases hrsv1 : f.rsv1 with
    | false => simp
    | true =>
      rw [if_neg fun hframe => hcompressed ⟨hrsv1, hframe⟩]
      simp only [if_true]
      omega
  have hrest : r.CompletesHandshake (f :: fs) close code reason ↔ r'.CompletesHandshake fs close code reason := by
    rw [CompletesHandshake, List.cons_append, ClientFrame.encodeAll, List.flatMap_cons,
      ← ClientFrame.encodeAll, drain_encode f _ hr.receiverOpen hjudge, hdelivered,
      List.flatMap_cons, hanswer]
    rfl
  rw [hrest, ih r' hr' rfl, hpending]
  simp only [List.forall_mem_cons]
  have hle : f.payload.length ≤ unsignedMax := Nat.le_of_not_lt hlong
  exact and_congr_right fun _ => (and_iff_right hle).symm

/-- The handshake completes exactly when at most one compressed message has to be
ignored and no frame is longer than any session allows. -/
theorem completes_iff {fs : List ClientFrame} {close : ClientFrame} {code : ℕ} {reason : Bytes}
    (hframes : PeerFrames deflate inside fs) (hr : r.AwaitsClose deflate inside)
    (hfits : ∀ g ∈ fs, g.opCode.isControl = false → r.maxPayload ≠ 0 →
      g.payload.length ≤ r.maxPayload)
    (hopCode : close.opCode = .close) (hrsv : close.rsv1 = false)
    (hpayload : ValidClose close.payload code reason) :
    r.CompletesHandshake fs close code reason ↔
      r.pendingCompressed fs ≤ 1 ∧ ∀ g ∈ fs, g.payload.length ≤ unsignedMax := by
  have hcode := hpayload.parse.2
  induction hframes generalizing r with
  | nil inside =>
    have hfew : r.pendingCompressed [] ≤ 1 := by
      simp only [pendingCompressed, List.countP_nil]
      split_ifs <;> omega
    exact iff_of_true (drain_close hr hopCode hrsv hpayload) ⟨hfew, by simp⟩
  | @control inside f fs hcontrol hplain _ ih =>
    have hshort : f.payload.length ≤ unsignedMax :=
      (f.control (by rcases hcontrol with h | h <;> rw [h] <;> rfl)).2.trans (by decide)
    have hpending : r.pendingCompressed (f :: fs) = r.pendingCompressed fs := by
      simp [pendingCompressed, hplain]
    have hrest : r.CompletesHandshake (f :: fs) close code reason ↔
        r.CompletesHandshake fs close code reason := by
      have hdrain := (accepts_control hr.receiverOpen hcontrol hplain).drain
        (ClientFrame.encodeAll (fs ++ [close]))
      rw [← ClientFrame.encodeAll_append, List.singleton_append] at hdrain
      rw [CompletesHandshake, List.cons_append, hdrain, List.flatMap_cons, List.append_assoc,
        List.append_cancel_left_eq]
      rfl
    have hih : r.CompletesHandshake fs close code reason ↔
        r.pendingCompressed fs ≤ 1 ∧ ∀ g ∈ fs, g.payload.length ≤ unsignedMax :=
      ih hr fun g hg => hfits g (List.mem_cons_of_mem f hg)
    rw [hrest, hih, hpending, List.forall_mem_cons]
    exact and_congr_right fun _ => (and_iff_right hshort).symm
  | @start f fs hopCode' hcompressed _ ih =>
    have hcontrol : f.opCode.isControl = false := by rcases hopCode' with h | h <;> rw [h] <;> rfl
    have hnonzero : f.header.nibble ≠ 0 := by
      rw [ne_eq, f.nibble_header]
      rcases hopCode' with h | h <;> rw [h] <;> decide
    have hsequence : r.outOfSequence f.header = false := by
      simp [outOfSequence, hr.message, hnonzero]
    exact completes_data hr (by rw [f.isData_header, hcontrol]; rfl) hsequence
      (fun h => ⟨hnonzero, hcompressed h⟩) (hfits f (by simp) hcontrol) hcode fun r' hr' hsame =>
        ih hr' fun g hg => hsame ▸ hfits g (List.mem_cons_of_mem f hg)
  | @continuation f fs hopCode' hplain _ ih =>
    have hcontrol : f.opCode.isControl = false := by rw [hopCode']; rfl
    have hzero : f.header.nibble = 0 := f.nibble_header.mpr hopCode'
    have hsome : r.message.isNone = false := by
      rw [← Option.not_isSome, hr.message]
      rfl
    have hsequence : r.outOfSequence f.header = false := by
      simp [outOfSequence, hzero, hsome]
    exact completes_data hr (by rw [f.isData_header, hcontrol]; rfl) hsequence
      (fun h => absurd (h.symm.trans hplain) (by decide)) (hfits f (by simp) hcontrol) hcode
      fun r' hr' hsame => ih hr' fun g hg => hsame ▸ hfits g (List.mem_cons_of_mem f hg)

/-- What is known of a receiver before the closing handshake. -/
structure Follows (r : Receiver Z) (deflate inside isOpen : Bool) : Prop where
  notSent : r.closeSent = false
  message : r.message.isSome = inside
  compressed : r.compression = .compressedFrame ↔ isOpen = true
  negotiated : deflate = true → r.compression ≠ .disabled
  open_inside : isOpen = true → inside = true

/-- A completed message leaves the compression status of a session between
messages, unless it ends the connection. -/
theorem complete_open {r' : Receiver Z} {data : Bytes} {opCode : OpCode} {es : List Event}
    (hcomplete : r.complete data opCode = (r', es)) (hopen : r'.closing = false) :
    r'.closeSent = r.closeSent ∧ r'.message = r.message ∧ r'.compression =
      if r.compression = .compressedFrame then .enabled else r.compression := by
  have hreport : ∀ {q : Receiver Z} {bytes : Bytes}, q.report bytes opCode = (r', es) → r' = q := by
    intro q bytes hreported
    unfold report at hreported
    split_ifs at hreported
    · cases hreported
      cases hopen
    · exact (Prod.mk.inj hreported).1.symm
  unfold complete at hcomplete
  simp only at hcomplete
  split_ifs at hcomplete with hcompressed hfailed
  · cases hcomplete
    cases hopen
  · rw [hreport hcomplete, if_pos hcompressed]
    exact ⟨rfl, rfl, rfl⟩
  · rw [hreport hcomplete, if_neg hcompressed]
    exact ⟨rfl, rfl, rfl⟩

/-- A data frame that leaves the receiver open is followed. -/
theorem Follows.data {r' : Receiver Z} {isOpen : Bool} {es : List Event}
    (hr : r.Follows deflate inside isOpen) (hdata : f.opCode.isControl = false)
    (hdelivered : r.deliver f.header f.payload = (r', es)) (hopen : r'.closing = false) :
    r'.Follows deflate (!f.fin) (ClientFrame.openAfter isOpen f) := by
  have hdata' : f.header.isData = true := by rw [f.isData_header, hdata]; rfl
  have hframe : r.compressionIn f.header = .compressedFrame ↔ (f.rsv1 || isOpen) = true := by
    have hset : f.header.rsv1 = f.rsv1 := rfl
    rw [compressionIn, hset, Bool.or_eq_true]
    split_ifs with h
    · simp [h]
    · rw [hr.compressed]
      simp [h]
  have hnegotiated : deflate = true → r.compressionIn f.header ≠ .disabled := by
    intro hdeflate
    unfold compressionIn
    split_ifs
    · decide
    · exact hr.negotiated hdeflate
  have hafter : ClientFrame.openAfter isOpen f = (!f.fin && (f.rsv1 || isOpen)) := by
    rw [ClientFrame.openAfter, hdata]
    rfl
  rw [hafter]
  cases hfin : f.fin with
  | false =>
    rw [deliver_more f.payload hdata' hr.notSent hfin] at hdelivered
    cases hdelivered
    exact ⟨hr.notSent, rfl, hframe, hnegotiated, fun _ => rfl⟩
  | true =>
    rw [deliver_last f.payload hdata' hr.notSent hfin] at hdelivered
    obtain ⟨hsent, hmessage, hcompression⟩ := complete_open hdelivered hopen
    refine ⟨hsent.trans hr.notSent, by rw [hmessage]; rfl, ?_, fun hdeflate => ?_, fun h => by cases h⟩
    · rw [hcompression]
      split_ifs with h
      · simp
      · simpa using h
    · rw [hcompression]
      split_ifs
      · decide
      · exact hnegotiated hdeflate

/-- A receiver that has accepted the frames of a peer has followed their shape. -/
theorem Accepts.follows {r' : Receiver Z} {isOpen : Bool} {fs gs : List ClientFrame}
    {es : List Event} (haccepts : r.Accepts fs r' es) (hopen : r'.closing = false)
    (hframes : PeerFrames deflate inside (fs ++ gs)) (hr : r.Follows deflate inside isOpen) :
    ∃ inside', PeerFrames deflate inside' gs ∧
      r'.Follows deflate inside' (fs.foldl ClientFrame.openAfter isOpen) := by
  induction haccepts generalizing inside isOpen with
  | nil => exact ⟨inside, hframes, hr⟩
  | @cons r r₁ r'' f fs es es' hopen₀ hok hdelivered haccepts ih =>
    have hopen₁ : r₁.closing = false := by
      cases haccepts with
      | nil => exact hopen
      | cons hopen₁ _ _ _ => exact hopen₁
    have hdata : f.opCode.isControl = false → PeerFrames deflate (!f.fin) (fs ++ gs) →
        ∃ inside', PeerFrames deflate inside' gs ∧
          r''.Follows deflate inside' ((f :: fs).foldl ClientFrame.openAfter isOpen) :=
      fun hcontrol hrest => ih hopen hrest (hr.data hcontrol hdelivered hopen₁)
    cases hframes with
    | control hcontrol hplain hrest =>
      have hsame : r₁ = r :=
        (Prod.mk.inj (hdelivered.symm.trans (deliver_control r hcontrol))).1
      have hopenAfter : ClientFrame.openAfter isOpen f = isOpen := by
        rw [ClientFrame.openAfter, if_pos]
        rcases hcontrol with h | h <;> rw [h] <;> rfl
      subst hsame
      rw [List.foldl_cons, hopenAfter]
      exact ih hopen hrest hr
    | start hopCode _ hrest =>
      exact hdata (by rcases hopCode with h | h <;> rw [h] <;> rfl) hrest
    | continuation hopCode _ hrest => exact hdata (by rw [hopCode]; rfl) hrest

theorem deliver_maxPayload (r : Receiver Z) (h : FrameHeader) (payload : Bytes) :
    (r.deliver h payload).1.maxPayload = r.maxPayload := by
  have hreport : ∀ (q : Receiver Z) (data : Bytes) (opCode : OpCode),
      (q.report data opCode).1.maxPayload = q.maxPayload := by
    intro q data opCode
    unfold report
    split_ifs <;> rfl
  unfold deliver deliverData deliverControl deliverClose complete
  simp only
  split_ifs <;> first | rfl | exact hreport _ _ _

theorem Accepts.maxPayload {r' : Receiver Z} {fs : List ClientFrame} {es : List Event}
    (h : r.Accepts fs r' es) : r'.maxPayload = r.maxPayload := by
  induction h with
  | nil => rfl
  | cons _ _ hdelivered _ ih =>
    have hkept := deliver_maxPayload _ _ _ |>.symm.trans (congrArg (·.1.maxPayload) hdelivered)
    exact ih.trans hkept.symm

/-- No frame is accepted after a Close frame. -/
theorem Accepts.closing {r' : Receiver Z} {fs : List ClientFrame} {es : List Event}
    (h : r.Accepts (fs ++ [f]) r' es) (hclose : f.opCode = .close) : r'.closing = true := by
  induction fs generalizing r es with
  | nil =>
    cases h with
    | cons _ _ hdelivered hnil =>
      cases hnil
      have hnibble : f.header.nibble = 8 := by
        simp only [ClientFrame.header, hclose]
        rfl
      rw [deliver_of_close hnibble] at hdelivered
      unfold deliverClose at hdelivered
      simp only at hdelivered
      split_ifs at hdelivered <;> cases hdelivered <;> rfl
  | cons g fs ih =>
    cases h with
    | cons _ _ _ hrest => exact ih hrest

end Receiver

/-- A followed receiver has read all whole frames. -/
theorem StreamWebSocket.Tracks.settled {ws : StreamWebSocket Z} {st : Receiver Z × Bytes}
    (h : ws.Tracks st) : (Receiver.decoder Z).Settled st := by
  rcases h with hended | hreads
  · simp [Streaming.Decoder.Settled, Receiver.decoder, Receiver.next, hended.receiver]
  · exact hreads.settled

/-- **When a locally initiated handshake completes.** A session has created a Close
frame somewhere in the stream of its peer. It then answers every Ping and
reports the Close frame of the peer, and nothing else, exactly when the peer
has at most one compressed message that was not complete by then, and no
longer frame than any session allows. -/
theorem createCloseFrame_completes_iff (negotiatedOptions serverMaxWindowBits maxPayload : ℕ)
    (compressionContext : Option (CompressionContext Z)) (before after : List Call)
    (code' : ℕ) (message frame : Bytes) (ws' : StreamWebSocket Z) (fs : List ClientFrame)
    (close : ClientFrame) (code : ℕ) (reason : Bytes)
    (hbefore : ∀ chunk ∈ Call.received before, chunk.length < 2 ^ 31)
    (hafter : ∀ chunk ∈ Call.received after, chunk.length < 2 ^ 31)
    (hframes : PeerFrames (hasOption negotiatedOptions PERMESSAGE_DEFLATE) false fs)
    (hfits : ∀ f ∈ fs, f.opCode.isControl = false → maxPayload ≠ 0 →
      f.payload.length ≤ maxPayload)
    (hopCode : close.opCode = .close) (hrsv : close.rsv1 = false)
    (hclose : ValidClose close.payload code reason)
    (hstream : (Call.received before).flatten ++ (Call.received after).flatten =
      ClientFrame.encodeAll (fs ++ [close]))
    (hcreated : ((StreamWebSocket.create negotiatedOptions serverMaxWindowBits maxPayload
      compressionContext).callAll before).1.createCloseFrame code' message = (some frame, ws')) :
    let read := (ClientFrame.splitBytes (Call.received before).flatten.length fs).1
    let unread := (ClientFrame.splitBytes (Call.received before).flatten.length fs).2
    (ws'.callAll after).2 = unread.flatMap ClientFrame.answer ++ [.close code reason] ↔
      ClientFrame.incompleteCompressed read unread ≤ 1 ∧
        ∀ f ∈ unread, f.payload.length ≤ unsignedMax := by
  intro read unread
  -- The session follows a receiver up to the Close frame, and afterwards one that
  -- has sent it.
  let fresh : Receiver Z := Receiver.create negotiatedOptions maxPayload compressionContext
  obtain ⟨⟨r, pending, es⟩, hdrain⟩ :
      ∃ drained, (Receiver.decoder Z).drain fresh (Call.received before).flatten = drained :=
    ⟨_, rfl⟩
  have hfresh := StreamWebSocket.create_tracks (Z := Z) negotiatedOptions serverMaxWindowBits
    maxPayload compressionContext
  have htracks := (StreamWebSocket.callAll_tracks hfresh hbefore).1
  rw [(Receiver.decoder Z).feedAll_eq_feed_flatten hfresh.settled] at htracks
  simp only [Streaming.Decoder.feed, List.nil_append] at htracks
  rw [hdrain] at htracks
  obtain ⟨hopen, hunsent, htracks'⟩ := StreamWebSocket.createCloseFrame_tracks htracks hcreated
  have hevents := (StreamWebSocket.callAll_tracks htracks' hafter).2
  rw [(Receiver.decoder Z).feedAll_eq_feed_flatten htracks'.settled] at hevents
  -- The receiver has accepted the frames read so far, and keeps a part of the next.
  obtain ⟨haccepts, hpending⟩ := Receiver.drain_prefix rfl hstream hdrain hopen
  rcases ClientFrame.splitBytes_concat (Call.received before).flatten.length fs close with
    hall | hsplit
  · rw [hall] at haccepts
    rw [haccepts.closing hopCode] at hopen
    cases hopen
  rw [hsplit] at haccepts hpending
  have hfollows : fresh.Follows (hasOption negotiatedOptions PERMESSAGE_DEFLATE) false false := by
    refine ⟨rfl, rfl, ?_, fun hdeflate => ?_, fun h => by cases h⟩
    · simp only [fresh, Receiver.create]
      split_ifs <;> simp
    · simp [fresh, Receiver.create, hdeflate]
  have hframes' : PeerFrames _ false (read ++ unread) :=
    (ClientFrame.splitBytes_append _ fs).symm ▸ hframes
  obtain ⟨inside, hunread, hr⟩ := haccepts.follows hopen hframes' hfollows
  have hawaits : Receiver.AwaitsClose { r with closeSent := true }
      (hasOption negotiatedOptions PERMESSAGE_DEFLATE) inside :=
    ⟨hopen, rfl, hr.message, hr.negotiated⟩
  have hlimit : ∀ f ∈ unread, f.opCode.isControl = false → r.maxPayload ≠ 0 →
      f.payload.length ≤ r.maxPayload := by
    intro f hf
    have hsame : r.maxPayload = maxPayload := haccepts.maxPayload
    rw [hsame]
    refine hfits f ?_
    rw [← ClientFrame.splitBytes_append (Call.received before).flatten.length fs]
    exact List.mem_append_right _ hf
  have hcount : Receiver.pendingCompressed { r with closeSent := true } unread =
      ClientFrame.incompleteCompressed read unread := by
    simp only [Receiver.pendingCompressed, ClientFrame.incompleteCompressed, hr.compressed]
    rfl
  have hcompletes := Receiver.completes_iff hunread hawaits hlimit hopCode hrsv hclose
  rw [hcount, Receiver.CompletesHandshake, ← hpending] at hcompletes
  rw [hevents, ← hcompletes]
  rfl

/-- A compressed message in one frame. -/
def compressedFrame : ClientFrame :=
  ⟨true, true, .binary, readMask [1, 2, 3, 4] 0, [0x4a, 0x04, 0x00], by decide, by decide⟩

/-- The Close frame of a peer that gives no code. -/
def emptyCloseFrame : ClientFrame :=
  ⟨true, false, .close, readMask [5, 6, 7, 8] 0, [], by decide, by decide⟩

/-- One compressed message crosses the Close frame, in two chunks. -/
theorem createCloseFrame_completes_iff_once :
    let stream := ClientFrame.encodeAll [compressedFrame, emptyCloseFrame]
    let created := ((StreamWebSocket.create (Z := Zlib.sample) PERMESSAGE_DEFLATE 15 16
      none).callAll [.send [0x61] .binary false]).1.createCloseFrame 1000 []
    (created.2.callAll [.receive (stream.take 7), .receive (stream.drop 7)]).2 =
        [compressedFrame].flatMap ClientFrame.answer ++ [.close 1005 []] ↔
      ClientFrame.incompleteCompressed [] [compressedFrame] ≤ 1 ∧
        ∀ f ∈ [compressedFrame], f.payload.length ≤ unsignedMax :=
  createCloseFrame_completes_iff PERMESSAGE_DEFLATE 15 16 none [.send [0x61] .binary false] _ 1000 []
    (formatClose 1000 []) _ [compressedFrame] emptyCloseFrame 1005 [] (by decide) (by decide)
    (.start (.inr rfl) (fun _ => rfl) (.nil _)) (by decide) rfl rfl .empty (by decide)
    rfl

/-- Two compressed messages cross the Close frame. The second is taken for one
inside the first, and the session reports an abnormal closure. -/
theorem compressedFrames_fail :
    let fresh := StreamWebSocket.create (Z := Zlib.sample) PERMESSAGE_DEFLATE 15 16 none
    let created := fresh.createCloseFrame 1000 []
    created.1 = some (formatClose 1000 []) ∧
      PeerFrames true false [compressedFrame, compressedFrame] ∧
      ValidClose emptyCloseFrame.payload 1005 [] ∧
      (created.2.callAll [.receive (ClientFrame.encodeAll
        [compressedFrame, compressedFrame, emptyCloseFrame])]).2 = [.close 1006 []] ∧
      [compressedFrame, compressedFrame].flatMap ClientFrame.answer ++ [.close 1005 []] ≠
        [.close 1006 []] := by
  intro fresh created
  have hstart : PeerFrames true false [compressedFrame] :=
    .start (.inr rfl) (fun _ => rfl) (.nil _)
  refine ⟨rfl, .start (.inr rfl) (fun _ => rfl) hstart, .empty, ?_, by decide⟩
  let calls : List Call :=
    [.receive (ClientFrame.encodeAll [compressedFrame, compressedFrame, emptyCloseFrame])]
  have hcreated : fresh.createCloseFrame 1000 [] = (some (formatClose 1000 []), created.2) := rfl
  have hchunks : ∀ chunk ∈ Call.received calls, chunk.length < 2 ^ 31 := by decide
  have htracks := (StreamWebSocket.createCloseFrame_tracks
    (StreamWebSocket.create_tracks PERMESSAGE_DEFLATE 15 16 none) hcreated).2.2
  have hevents := (StreamWebSocket.callAll_tracks htracks hchunks).2
  let sent : Receiver Zlib.sample :=
    { Receiver.create PERMESSAGE_DEFLATE 16 none with closeSent := true }
  let ignored : Receiver Zlib.sample := { sent with compression := .compressedFrame }
  have hfirst : (Receiver.decoder Zlib.sample).next sent
      (ClientFrame.encodeAll [compressedFrame, compressedFrame, emptyCloseFrame]) =
        some (ignored, [], 9) := rfl
  have hsecond : (Receiver.decoder Zlib.sample).next ignored
      ((ClientFrame.encodeAll [compressedFrame, compressedFrame, emptyCloseFrame]).drop 9) =
        some ((ignored.refuse 1002).1, (ignored.refuse 1002).2, 6) := rfl
  rw [hevents, Call.received, Call.received, Streaming.Decoder.feedAll, Streaming.Decoder.feedAll,
    List.append_nil, Streaming.Decoder.feed, List.nil_append,
    (Receiver.decoder _).drain_of_next hfirst, (Receiver.decoder _).drain_of_next hsecond,
    Receiver.drain_of_closing rfl]
  rfl

end Eiows
