import Eiows.InPlace.Calls
import Eiows.Receiver.FrameInProgress

/-!
# Reachable sessions in memory

What holds of every session that calls lead to: the representation of the parser
state, the bounds of all accesses of the next call, and the views of the messages that
it reports.
-/

namespace Eiows

open Memory

variable {Z : Zlib}

section Parts

variable {σ : Type} (hooks : WebSocketProtocolHooks σ)

/-- The parts of a frame are no longer than what is left of the chunk. -/
theorem consumeMessage_parts (payLength messageHeader : ℕ) (src : Bytes) (w : WebSocketState)
    (s : σ × List ℕ) :
    ∀ n ∈ (consumeMessage (recordParts hooks) payLength messageHeader src w s).session.2,
      n ∈ s.2 ∨ n ≤ src.length := by
  obtain ⟨s, parts⟩ := s
  intro n hn
  rcases consumeMessage_record_cases hooks payLength messageHeader src w s parts with
    ⟨w', s', hstop⟩ | hrecord
  · rw [hstop] at hn
    exact .inl hn
  · rw [hrecord] at hn
    refine (List.mem_append.mp hn).imp_right fun hnew => ?_
    rw [List.mem_singleton.mp hnew]
    omega

theorem parseNext_parts (n : ℕ) :
    ∀ (src : Bytes) (w : WebSocketState) (s : σ × List ℕ), src.length = n →
      ∀ m ∈ (parseNext (recordParts hooks) src w s).2.2, m ∈ s.2 ∨ m ≤ src.length := by
  induction n using Nat.strong_induction_on with
  | _ n ih =>
    rintro src w ⟨s, parts⟩ hn m hm
    by_cases hshort : src.length < shortMessageHeader ∨
        src.length < headerLengthOf (payloadLength src)
    · rw [parseNext_of_incomplete _ hshort] at hm
      split_ifs at hm <;> exact .inl hm
    · rw [parseNext_of_complete _ hshort, checkCompressed_record] at hm
      split_ifs at hm with hbad
      · exact .inl hm
      · have hparts := consumeMessage_parts hooks (announcedLength src)
          (headerLengthOf (payloadLength src)) src w ((checkCompressed hooks src s).2, parts)
        cases hresult : consumeMessage (recordParts hooks) (announcedLength src)
            (headerLengthOf (payloadLength src)) src w ((checkCompressed hooks src s).2, parts) with
        | stop w' s' =>
          rw [hresult] at hparts hm
          exact hparts m hm
        | next rest w' s' =>
          rw [hresult] at hparts hm
          have hrest := consumeMessage_next _ hresult
          have hheader := headerLengthOf_cases (payloadLength src)
          have hlength : rest.length = src.length -
              (announcedLength src + headerLengthOf (payloadLength src)) := by
            rw [hrest, List.length_drop]
          rcases ih rest.length (by omega) rest w' s' rfl m hm with hold | hle
          · exact hparts m hold
          · exact .inr (by omega)

/-- The parts of a chunk are no longer than the chunk, with the saved header. -/
theorem consume_parts (src : Bytes) (w : WebSocketState) (s : σ × List ℕ) :
    ∀ n ∈ (consume (recordParts hooks) src w s).2.2, n ∈ s.2 ∨ n ≤ w.spill.length + src.length := by
  obtain ⟨s, parts⟩ := s
  intro n hn
  rw [← List.length_append]
  unfold consume at hn
  split_ifs at hn
  · exact parseNext_parts hooks _ _ w (s, parts) rfl n hn
  · have hrecord := consumeContinuation_record hooks (w.spill ++ src) w s parts
    have hcontinued : ∀ n ∈ parts ++ [min w.remainingBytes (w.spill ++ src).length],
        n ∈ parts ∨ n ≤ (w.spill ++ src).length := by
      intro n hn
      refine (List.mem_append.mp hn).imp_right fun hnew => ?_
      rw [List.mem_singleton.mp hnew]
      exact min_le_right _ _
    cases hresult : consumeContinuation (recordParts hooks) (w.spill ++ src) w (s, parts) with
    | stop w' s' =>
      rw [hresult] at hrecord hn
      exact hcontinued n (hrecord ▸ hn)
    | next rest w' s' =>
      rw [hresult] at hrecord hn
      have hrest : rest.length ≤ (w.spill ++ src).length := by
        unfold consumeContinuation at hresult
        simp only at hresult
        split_ifs at hresult <;> (cases hresult; rw [List.length_drop]; omega)
      rcases parseNext_parts hooks _ rest w' s' rfl n hn with hold | hle
      · exact hcontinued n (hrecord ▸ hold)
      · exact .inr (hle.trans hrest)

end Parts

namespace StreamWebSocket

variable {ws : StreamWebSocket Z}

/-- Between frames nothing of a control frame is in the buffer. -/
theorem Representation.controlTip (h : ws.Representation) (hopen : ws.session.closing = false) :
    ws.session.controlTipLength ≤ 125 ∧
      (ws.session.controlTipLength ≠ 0 → ws.parser.wantsHead = false ∧
        3 ≤ ws.parser.currentOpCode.value ∧
        ws.session.controlTipLength ≤ ws.session.fragmentBuffer.length) := by
  cases h with
  | closed hclosed => exact absurd (hclosed.symm.trans hopen) (by decide)
  | between hwants hw hspill hs =>
    have htip := hs.2
    exact ⟨by omega, fun hne => absurd htip hne⟩
  | inside hwants hw hspill hremaining hs =>
    by_cases hdata : ws.parser.currentOpCode.value < 3
    · have htip := hs.data hdata
      exact ⟨by omega, fun hne => absurd htip hne⟩
    · obtain ⟨hlength, hbuffer⟩ := hs.control (by omega)
      exact ⟨by omega, fun _ => ⟨hwants, by omega, hbuffer⟩⟩

theorem Representation.stack (h : ws.Representation) (hopen : ws.session.closing = false) :
    ws.parser.opStack =
      if ws.parser.wantsHead = true then (if ws.parser.fragmentedMessage = true then 0 else -1)
      else if 3 ≤ ws.parser.currentOpCode.value ∧ ws.parser.fragmentedMessage = true then 1 else 0 := by
  cases h with
  | closed hclosed => exact absurd (hclosed.symm.trans hopen) (by decide)
  | between hwants hw hspill hs => rw [if_pos hwants, hw.stack]
  | inside hwants hw hspill hremaining hs =>
    rw [if_neg (by rw [hwants]; decide), ← hw.stack]

/-- After a saved header has been completed, the parser is called with nothing saved. -/
theorem parserCalls_tail (h : ws.Representation) (data : Bytes) :
    ∀ call ∈ (ws.parserCalls data).tail, call.1.spill = [] := by
  have hprepared := h.prepare
  unfold parserCalls
  simp only
  split_ifs with hidle hspill hrest
  · simp
  · obtain ⟨hnotClosing, -⟩ := not_or.mp hidle
    have hopen : ws.prepare.session.closing = false := by simpa using hnotClosing
    simp only [List.tail_cons, List.mem_singleton, forall_eq]
    have hgoes : (ws.prepare.feedParser (data.take (takenForHeader ws.prepare.parser.spill
        data))).session.closing = false := (Bool.not_eq_true' _).mp hrest.1
    exact feedParser_savedHeader hprepared hopen hspill hrest.2 hgoes
  · simp
  · simp

/-- The frames of a chunk that is not too long are all unmasked within 32 bits. -/
theorem Representation.exactIn (h : ws.Representation) {data : Bytes} (hdata : data.length < 2 ^ 31)
    (variant : UnmaskVariant) : ws.ExactIn variant data := by
  have hprepared := h.prepare
  have hlimits : 2 ^ 31 + 13 ≤ InPlace.unmaskLimit variant := by
    cases variant <;> simp [InPlace.unmaskLimit]
  constructor
  · intro call hcall hwants hwhole
    have hlength : call.2.length ≤ data.length := by
      unfold parserCalls at hcall
      simp only at hcall
      split_ifs at hcall
      · cases hcall
      all_goals
        simp only [List.mem_cons, List.not_mem_nil, or_false] at hcall
        rcases hcall with rfl | rfl <;> simp
    omega
  · intro n hn
    unfold payloadParts consumeRecorded at hn
    simp only at hn
    by_cases hidle : ws.prepare.session.closing = true ∨ data = []
    · rw [if_pos hidle] at hn
      cases hn
    · rw [if_neg hidle] at hn
      have hlong : ¬unsignedMax < data.length := by
        unfold unsignedMax
        omega
      obtain ⟨hnotClosing, -⟩ := not_or.mp hidle
      have hopen : ws.prepare.session.closing = false := by simpa using hnotClosing
      rw [if_neg hlong] at hn
      by_cases hspill : ws.prepare.parser.spill ≠ []
      · obtain ⟨-, hincomplete⟩ := hprepared.spill_length hopen hspill
        have hsaved := hincomplete.1
        have hcopied : min data.length (spilledHeaderLength ws.prepare.parser.spill data -
          ws.prepare.parser.spill.length) = takenForHeader ws.prepare.parser.spill data := rfl
        rw [if_pos hspill, hcopied] at hn
        have hfirst := consume_parts (protocolHooks (Z := Z))
          (data.take (takenForHeader ws.prepare.parser.spill data)) ws.prepare.parser
          (ws.prepare.session, [])
        have hheader : ∀ n ∈ (Eiows.consume (recordParts protocolHooks)
            (data.take (takenForHeader ws.prepare.parser.spill data)) ws.prepare.parser
            (ws.prepare.session, [])).2.2, n ≤ 13 + data.length := by
          intro n hn
          rcases hfirst n hn with hold | hle
          · cases hold
          · rw [List.length_take] at hle
            omega
        split_ifs at hn with hrest
        · have hgoes : (ws.prepare.feedParser (data.take (takenForHeader ws.prepare.parser.spill
              data))).session.closing = false := by
            rw [feedParser_recordParts _ _ []]
            exact (Bool.not_eq_true' _).mp hrest.1
          have hnone := feedParser_savedHeader hprepared hopen hspill hrest.2 hgoes
          rw [feedParser_recordParts _ _ []] at hnone
          simp only at hnone
          rcases consume_parts _ _ _ _ n hn with hold | hle
          · have := hheader n hold
            omega
          · rw [hnone, List.length_drop, List.length_nil] at hle
            omega
        · have := hheader n hn
          omega
      · rw [if_neg hspill] at hn
        rcases consume_parts _ _ _ _ n hn with hold | hle
        · cases hold
        · rw [not_not.mp hspill, List.length_nil] at hle
          omega

end StreamWebSocket

/-- In every open session that calls lead to, the stack of opcodes, the saved bytes and
the length of a control frame's part are as the parser relies on: its next call stays
inside its objects and its bit-fields, whatever the chunk is, and writes no saved bytes in front
of the chunk. -/
theorem parser_representation (negotiatedOptions serverMaxWindowBits maxPayload : ℕ)
    (compressionContext : Option (CompressionContext Z)) (calls : List (SessionCall Z))
    (begun : BegunFrame) :
    let fresh := StreamWebSocket.create negotiatedOptions serverMaxWindowBits maxPayload
      compressionContext
    let ws := (fresh.invokeAll calls).2
    ws.session.closing = false →
      (ws.parser.wantsHead = true →
        ws.parser.opStack = if ws.parser.fragmentedMessage = true then 0 else -1) ∧
      (ws.parser.wantsHead = false → ws.parser.opStack =
        if 3 ≤ (fresh.frameBegunAll begun calls).opCode.value ∧ ws.parser.fragmentedMessage = true
        then 1 else 0) ∧
      (ws.parser.spill ≠ [] → ws.parser.wantsHead = true ∧ ws.parser.spill.length ≤ 13 ∧
        ws.parser.spill.length < impliedHeaderLength ws.parser.spill ∧
        ∀ data, ws.parser.spill.length <
          StreamWebSocket.spilledHeaderLength ws.parser.spill data) ∧
      ws.session.controlTipLength ≤ 125 ∧
      (ws.session.controlTipLength ≠ 0 → ws.parser.wantsHead = false ∧
        3 ≤ (fresh.frameBegunAll begun calls).opCode.value ∧
        ws.session.controlTipLength ≤ ws.session.fragmentBuffer.length) ∧
      ∀ data, (∀ call ∈ (ws.parserCalls data).tail, call.1.spill = []) ∧
        ∀ variant headerBuffer, headerBuffer.length = headerBufferSize →
          match ws.consumeInPlace variant headerBuffer data with
          | .ok r => ws.consume data = ⟨r.parser, r.session.session⟩
          | .error fault => fault = .overflow ∧ 2 ^ 31 ≤ data.length := by
  intro fresh ws hopen
  have hfresh := StreamWebSocket.create_representation (Z := Z) negotiatedOptions
    serverMaxWindowBits maxPayload compressionContext
  have h : ws.Representation := StreamWebSocket.invokeAll_representation hfresh calls
  have hbegun : ws.parser.ReadsFrame (fresh.frameBegunAll begun calls) := by
    have hnone : fresh.parser.ReadsFrame begun := fun hreads => by cases hreads
    rcases StreamWebSocket.invokeAll_frameBegun hfresh hnone calls with hclosed | hreads
    · exact absurd (hclosed.symm.trans hopen) (by decide)
    · exact hreads
  have hstack := h.stack hopen
  obtain ⟨htip, hcontrol⟩ := h.controlTip hopen
  refine ⟨?_, ?_, ?_, htip, ?_, ?_⟩
  · intro hwants
    rw [if_pos hwants] at hstack
    exact hstack
  · intro hwants
    rw [if_neg (by rw [hwants]; decide)] at hstack
    simp only [(hbegun hwants).1]
    exact hstack
  · intro hspill
    obtain ⟨hwants, hincomplete⟩ := h.spill_length hopen hspill
    exact ⟨hwants, hincomplete.1, hincomplete.2, spill_lt_spilledHeaderLength hincomplete⟩
  · intro htip
    obtain ⟨hwants, hvalue, hbuffer⟩ := hcontrol htip
    exact ⟨hwants, (hbegun hwants).1.mpr hvalue, hbuffer⟩
  · intro data
    refine ⟨StreamWebSocket.parserCalls_tail h data, fun variant headerBuffer hsize => ?_⟩
    rcases StreamWebSocket.consumeInPlace_run variant h data hsize with ⟨-, r, hrun, hkept⟩ | ⟨hlong, hrun⟩
    · rw [hrun]
      exact hkept.state
    · rw [hrun]
      refine ⟨rfl, ?_⟩
      by_contra hshort
      exact hlong (h.exactIn (by omega) variant)

/-- One byte of a header is saved. -/
theorem parser_representation_letter :
    let ws := ((StreamWebSocket.create (Z := Zlib.sample) 0 15 0 none).invokeAll
      [.consume [0x81]]).2
    ws.session.closing = false ∧ ws.parser.spill = [0x81] ∧ ws.parser.wantsHead = true := by
  have hspill : ((StreamWebSocket.create (Z := Zlib.sample) 0 15 0 none).invokeAll
      [.consume [0x81]]).2.parser.spill = [0x81] := by decide +kernel
  have hopen : ((StreamWebSocket.create (Z := Zlib.sample) 0 15 0 none).invokeAll
      [.consume [0x81]]).2.session.closing = false := by decide +kernel
  obtain ⟨-, -, hsaved, -⟩ := parser_representation 0 15 0 none [.consume [0x81]]
    ⟨.none, Vector.replicate 4 0, 0⟩ hopen
  exact ⟨hopen, hspill, (hsaved (by rw [hspill]; decide)).1⟩

end Eiows
