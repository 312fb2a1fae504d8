import Eiows.InPlace.Session

/-!
# A call of `consume` in memory

A chunk is read in one call of the parser, or in two when a saved header is completed
first. Either every payload in it is unmasked within 32 bits, and then the call in
memory ends as the session on lists does, with all views intact; or it stops at the
first computation that leaves its type.
-/

namespace Eiows

open Memory

variable {Z : Zlib}

section Header

variable {σ : Type} (hooks : WebSocketProtocolHooks σ) {src : Bytes}

/-- A header with nothing behind it has at most the empty payload. -/
theorem parseNext_header_parts (hlength : src.length ≤ headerLengthOf (payloadLength src))
    (w : WebSocketState) (s : σ × List ℕ) :
    ∀ n ∈ (parseNext (recordParts hooks) src w s).2.2, n ∈ s.2 ∨ n = 0 := by
  obtain ⟨s, parts⟩ := s
  intro n hn
  by_cases hshort : src.length < shortMessageHeader ∨
      src.length < headerLengthOf (payloadLength src)
  · rw [parseNext_of_incomplete _ hshort] at hn
    split_ifs at hn <;> exact .inl hn
  · rw [parseNext_of_complete _ hshort, checkCompressed_record] at hn
    split_ifs at hn with hbad
    · exact .inl hn
    · rcases consumeMessage_record_cases hooks (announcedLength src)
        (headerLengthOf (payloadLength src)) src w (checkCompressed hooks src s).2 parts with
          ⟨w', s', hstop⟩ | hrecord
      · rw [hstop] at hn
        exact .inl hn
      · have hempty : min (announcedLength src)
            (src.length - headerLengthOf (payloadLength src)) = 0 := by omega
        rw [hempty] at hrecord
        cases hresult : consumeMessage (recordParts hooks) (announcedLength src)
            (headerLengthOf (payloadLength src)) src w ((checkCompressed hooks src s).2, parts) with
        | stop w' s' =>
          rw [hresult] at hn hrecord
          exact List.mem_append.mp (hrecord ▸ hn) |>.imp_right List.mem_singleton.mp
        | next rest w' s' =>
          have hrest : rest = [] := by
            rw [consumeMessage_next _ hresult]
            exact List.drop_of_length_le (by omega)
          rw [hresult] at hn hrecord
          rw [Consumed.resume, hrest, parseNext_of_incomplete _ (.inl (by decide)), if_pos rfl] at hn
          exact List.mem_append.mp (hrecord ▸ hn) |>.imp_right List.mem_singleton.mp

end Header

/-- An open session has a parser state that a call can start from. -/
theorem Represents.started {w : WebSocketState} {s : Session Z}
    (h : Represents Session.Unoccupied Session.Collecting (fun s => s.closing = true) w s)
    (hopen : s.closing = false) : InPlace.Started w := by
  cases h with
  | closed hclosed => exact absurd (hclosed.symm.trans hopen) (by decide)
  | between hwants hw hspill hs =>
    exact ⟨fun _ => hw, fun hno => absurd (hwants.symm.trans hno) (by decide)⟩
  | inside hwants hw hspill hremaining hs =>
    exact ⟨fun hyes => absurd (hyes.symm.trans hwants) (by decide), fun _ => ⟨hw, hspill⟩⟩

/-- Saved bytes are at most thirteen. -/
theorem Represents.spill_length {w : WebSocketState} {s : Session Z}
    (h : Represents Session.Unoccupied Session.Collecting (fun s => s.closing = true) w s)
    (hopen : s.closing = false) (hspill : w.spill ≠ []) :
    w.wantsHead = true ∧ IncompleteHeader w.spill := by
  cases h with
  | closed hclosed => exact absurd (hclosed.symm.trans hopen) (by decide)
  | between hwants _ hincomplete _ => exact ⟨hwants, hincomplete hspill⟩
  | inside _ _ hnone _ _ => exact absurd hnone hspill

theorem withBlock_self (memory : Block → Bytes) (block : Block) :
    withBlock memory block (memory block) = memory := Function.update_eq_self block memory

/-- The memory of a result, when the parser has written to the chunk last. -/
theorem ConsumedInPlace.memory_eq (r : ConsumedInPlace Z) (memory : Block → Bytes)
    (hheader : memory .header = r.headerBuffer) : withBlock memory .chunk r.chunk = r.memory := by
  funext block
  cases block with
  | header => simp [withBlock, hheader, ConsumedInPlace.memory]
  | chunk => simp [withBlock, ConsumedInPlace.memory]

namespace StreamWebSocket

variable {ws : StreamWebSocket Z} (variant : UnmaskVariant)

/-- Every payload of a chunk is unmasked within 32 bits. -/
def ExactIn (variant : UnmaskVariant) (data : Bytes) (ws : StreamWebSocket Z) : Prop :=
  (∀ call ∈ ws.parserCalls data, InPlace.CompletesWithin call.1 call.2.length) ∧
    ∀ n ∈ ws.payloadParts data, n < InPlace.unmaskLimit variant

/-- A saved header is completed in `headerBuffer`, and no payload is borrowed from there. -/
theorem consumeHeader_eq (h : ws.Representation) (hopen : ws.session.closing = false)
    (hspill : ws.parser.spill ≠ []) {data headerBuffer : Bytes} (hdata : data ≠ [])
    (hsize : headerBuffer.length = headerBufferSize) (memory : Block → Bytes) :
    let header := data.take (takenForHeader ws.parser.spill data)
    let first := Eiows.consume (recordParts protocolHooks) header ws.parser (ws.session, [])
    ∃ buffer b, ws.consumeHeader variant headerBuffer header = .ok (buffer, first.1, b) ∧
      buffer.length = headerBufferSize ∧ Borrowing memory .header buffer b first.2 ∧
      (∀ n ∈ first.2.2, n = 0) := by
  intro header first
  obtain ⟨hwants, hincomplete⟩ := h.spill_length hopen hspill
  have hlength := hincomplete.1
  have hmissing := spill_lt_spilledHeaderLength hincomplete data
  have hlong : spilledHeaderLength ws.parser.spill data ≤ 14 := by
    have hcases := headerLengthOf_cases ((if 2 ≤ ws.parser.spill.length then
      byteAt ws.parser.spill 1 else byteAt data 0) &&& 127).toNat
    unfold spilledHeaderLength
    omega
  have hheader : header.length ≤ 13 := by
    have hpos := List.length_pos_of_ne_nil hspill
    simp only [header, takenForHeader, List.length_take]
    omega
  have hpadding : consumePrePadding = 13 := rfl
  have hbuffer : headerBuffer.length = 27 := hsize
  have hstore : store headerBuffer consumePrePadding header =
      .ok (overwrite headerBuffer consumePrePadding header) := store_of_le (by omega)
  have hwritten := @overwrite_length _ headerBuffer header consumePrePadding (by omega)
  have hframe : slice (overwrite headerBuffer consumePrePadding header) consumePrePadding
      header.length = header := slice_overwrite_self (by omega)
  have hzero : ∀ n ∈ first.2.2, n = 0 := by
    intro n hn
    have hparts := parseNext_header_parts (protocolHooks (Z := Z))
      (savedHeader_length hspill hincomplete hdata).1 ws.parser (ws.session, [])
    have hfirst : first = parseNext (recordParts protocolHooks) (ws.parser.spill ++ header) ws.parser
        (ws.session, []) := by
      simp only [first, Eiows.consume, if_pos hwants]
    rw [hfirst] at hn
    rcases hparts n hn with hold | hzero
    · cases hold
    · exact hzero
  have hstart : Borrowing memory .header ((overwrite headerBuffer consumePrePadding header).take
      (consumePrePadding - ws.parser.spill.length)) { session := ws.session } (ws.session, []) := by
    refine ⟨rfl, ⟨?_, ?_, List.Pairwise.nil⟩, ?_, ?_⟩ <;> (intro v hv; cases hv)
  have hparsed := InPlace.consume_refines variant
    (borrowingHooks_simulates (Z := Z) memory .header) protocolHooks_limitsLength (h.started hopen)
    (c := ⟨overwrite headerBuffer consumePrePadding header, consumePrePadding, header.length⟩)
    (by simp only [hwritten]; omega) (by simp only; omega) (by simp only; omega) hstart
    (by intro n hn; cases hn)
    (by intro hno; exact absurd (hwants.symm.trans hno) (by decide))
  simp only [InPlace.Cursor.frame, hframe] at hparsed
  simp only [consumeHeader, hstore, bind, Except.bind]
  generalize InPlace.consume variant (borrowingHooks Block.header)
    ⟨overwrite headerBuffer consumePrePadding header, consumePrePadding, header.length⟩ ws.parser
    { session := ws.session } = machine at hparsed ⊢
  have hfirst : Eiows.consume (recordParts protocolHooks) header ws.parser (ws.session, []) = first :=
    rfl
  rw [hfirst] at hparsed
  clear_value first
  cases hparsed with
  | done length parts related => exact ⟨_, _, rfl, length.trans (hwritten.trans hsize), related, hzero⟩
  | overflow n part long =>
    have hlimits := InPlace.unmaskLimit_le variant
    have := hzero n part
    omega

/-- The call of the parser that reads the chunk itself. -/
theorem consumeChunk_eq {w : WebSocketState} {s : Session Z × List ℕ} {b : BorrowingSession Z}
    {data : Bytes} {offset : ℕ} (hw : InPlace.Started w) (hspill : w.spill = [])
    (memory : Block → Bytes) (hoffset : offset ≤ data.length) (hlength : data.length ≤ unsignedMax)
    (hrelated : Borrowing memory .chunk (data.take offset) b s)
    (hparts : ∀ n ∈ s.2, n < InPlace.unmaskLimit variant) :
    let last := Eiows.consume (recordParts protocolHooks) (data.drop offset) w s
    let exact := InPlace.CompletesWithin w (data.drop offset).length ∧
      ∀ n ∈ last.2.2, n < InPlace.unmaskLimit variant
    (exact ∧ ∃ chunk b', InPlace.consume variant (borrowingHooks .chunk)
        ⟨data, offset, data.length - offset⟩ w b = .ok (chunk, last.1, b') ∧
          chunk.length = data.length ∧ Borrowing memory .chunk chunk b' last.2) ∨
      (¬exact ∧ InPlace.consume variant (borrowingHooks .chunk) ⟨data, offset, data.length - offset⟩ w
        b = .error .overflow) := by
  intro last exact
  unfold unsignedMax at hlength
  have hframe : slice data offset (data.length - offset) = data.drop offset := by
    rw [slice, ← List.length_drop, List.take_length]
  by_cases hcompletes : InPlace.CompletesWithin w (data.drop offset).length
  · have hparsed := InPlace.consume_refines variant
      (borrowingHooks_simulates (Z := Z) memory .chunk) protocolHooks_limitsLength hw
      (c := ⟨data, offset, data.length - offset⟩) (by simp only; omega)
      (by rw [hspill]; exact Nat.zero_le _) (by rw [hspill]; simp only [List.length_nil]; omega)
      (by rwa [hspill, List.length_nil, Nat.sub_zero]) hparts (by rwa [List.length_drop] at hcompletes)
    simp only [InPlace.Cursor.frame, hframe] at hparsed
    generalize InPlace.consume variant (borrowingHooks Block.chunk)
      ⟨data, offset, data.length - offset⟩ w b = machine at hparsed ⊢
    have hlast : Eiows.consume (recordParts protocolHooks) (data.drop offset) w s = last := rfl
    rw [hlast] at hparsed
    clear_value last
    cases hparsed with
    | done length parts related => exact .inl ⟨⟨hcompletes, parts⟩, _, _, rfl, length, related⟩
    | overflow n part long =>
      refine .inr ⟨fun hexact => ?_, rfl⟩
      have := hexact.2 n part
      omega
  · refine .inr ⟨fun hexact => hcompletes hexact.1, ?_⟩
    apply InPlace.consume_overflow hw
    rwa [List.length_drop] at hcompletes

/-- A call in memory ends as the call on lists, with the views of its events intact. -/
structure Keeps (data : Bytes) (ws : StreamWebSocket Z) (r : ConsumedInPlace Z) : Prop where
  state : ws.consume data = ⟨r.parser, r.session.session⟩
  chunk : r.chunk.length = data.length
  headerBuffer : r.headerBuffer.length = headerBufferSize
  intact : Intact r.memory r.session
  borrowed : ∀ v ∈ r.session.views, v.block = .header → v.length = 0

/-- A call in memory either keeps what it should, or meets a payload that is too long. -/
theorem consumeInPlace_run (h : ws.Representation) (data : Bytes) {headerBuffer : Bytes}
    (hsize : headerBuffer.length = headerBufferSize) :
    (ws.ExactIn variant data ∧
        ∃ r, ws.consumeInPlace variant headerBuffer data = .ok r ∧ ws.Keeps data r) ∨
      (¬ws.ExactIn variant data ∧
        ws.consumeInPlace variant headerBuffer data = .error .overflow) := by
  have hlimits := InPlace.unmaskLimit_le variant
  have hprepared := h.prepare
  have hconsume := consumeRecorded_eq data ws
  have hviews : ∀ (memory : Block → Bytes) (s : Session Z), Intact memory { session := s } := by
    intro memory s
    refine ⟨?_, ?_, List.Pairwise.nil⟩ <;> (intro v hv; cases hv)
  unfold ExactIn payloadParts
  simp only [consumeInPlace, parserCalls, consumeRecorded, bind, Except.bind, pure, Except.pure]
    at hconsume ⊢
  by_cases hidle : ws.prepare.session.closing = true ∨ data = []
  · have hnone : ws.prepare.session.closing = true ∨ data = [] ∨ unsignedMax < data.length :=
      hidle.imp id .inl
    simp only [if_pos hidle, if_pos hnone] at hconsume ⊢
    refine .inl ⟨⟨by simp, by simp⟩, _, rfl, hconsume, rfl, hsize, hviews _ _, ?_⟩
    intro v hv
    cases hv
  · simp only [if_neg hidle] at hconsume ⊢
    obtain ⟨hnotClosing, hdata⟩ := not_or.mp hidle
    have hopen : ws.prepare.session.closing = false := by simpa using hnotClosing
    by_cases hlong : unsignedMax < data.length
    · have hnone : ws.prepare.session.closing = true ∨ data = [] ∨ unsignedMax < data.length :=
        .inr (.inr hlong)
      simp only [if_pos hlong, if_pos hnone] at hconsume ⊢
      refine .inl ⟨⟨by simp, by simp⟩, _, rfl, hconsume, rfl, hsize, hviews _ _, ?_⟩
      intro v hv
      cases hv
    · have hsome : ¬(ws.prepare.session.closing = true ∨ data = [] ∨ unsignedMax < data.length) :=
        fun h => h.elim hnotClosing fun h => h.elim hdata hlong
      have hstarted := hprepared.started hopen
      simp only [if_neg hlong, if_neg hsome] at hconsume ⊢
      by_cases hspill : ws.prepare.parser.spill ≠ []
      · obtain ⟨hwants, hincomplete⟩ := hprepared.spill_length hopen hspill
        have hmissing := unsignedSub_of_le (spill_lt_spilledHeaderLength hincomplete data).le
        obtain ⟨buffer, b, hheader, hbuffer, hborrowing, hzero⟩ := consumeHeader_eq
          variant hprepared hopen hspill hdata hsize (fun _ => [])
        have hsaved := fun hgoes => @feedParser_savedHeader Z _ hprepared hopen hspill data hgoes
        have hnext := fun hgoes => feedParser_representation hprepared hopen
          (data.take (takenForHeader ws.prepare.parser.spill data)) |>.started hgoes
        have hcopied : min data.length (spilledHeaderLength ws.prepare.parser.spill data -
          ws.prepare.parser.spill.length) = takenForHeader ws.prepare.parser.spill data := rfl
        rw [feedParser_recordParts _ _ []] at hsaved hnext
        simp only [if_pos hspill, hmissing, hcopied, hheader, feedParser_recordParts _ ws.prepare []]
          at hconsume ⊢
        generalize hfirst : Eiows.consume (recordParts protocolHooks)
          (data.take (takenForHeader ws.prepare.parser.spill data)) ws.prepare.parser
          (ws.prepare.session, []) = first at hborrowing hzero hsaved hnext hconsume ⊢
        rw [hborrowing.session]
        have hcompletes : InPlace.CompletesWithin ws.prepare.parser
            (data.take (takenForHeader ws.prepare.parser.spill data)).length :=
          fun hno => absurd (hwants.symm.trans hno) (by decide)
        have hparts : ∀ n ∈ first.2.2, n < InPlace.unmaskLimit variant := by
          intro n hn
          have := hzero n hn
          omega
        have hempty : ∀ v ∈ b.views, v.length = 0 := fun v hv => hzero _ (hborrowing.lengths v hv)
        -- The views in the header do not depend on the chunk.
        have hstart : ∀ more, Intact (withBlock (withBlock (fun _ => []) .header buffer) .chunk more)
            b := by
          intro more
          have hself := withBlock_self (withBlock (fun _ => []) .header buffer) .chunk
          have hchunk : withBlock (fun _ => []) .header buffer .chunk = [] := rfl
          rw [hchunk] at hself
          have hintact : Intact (withBlock (withBlock (fun _ => []) .header buffer) .chunk []) b := by
            rw [hself]
            exact hborrowing.intact
          exact hintact.extend more
        by_cases hrest : (!first.2.1.closing) = true ∧
            takenForHeader ws.prepare.parser.spill data < data.length
        · simp only [if_pos hrest] at hconsume ⊢
          have hgoes : first.2.1.closing = false := by simpa using hrest.1
          have hborrowing' : Borrowing (withBlock (fun _ => []) .header buffer) .chunk
              (data.take (takenForHeader ws.prepare.parser.spill data)) b first.2 :=
            ⟨hborrowing.session, hstart _, hborrowing.lengths, fun v hv _ => hempty v hv⟩
          have hchunk := consumeChunk_eq variant (hnext hgoes) (hsaved hrest.2 hgoes)
            _ hrest.2.le (by omega) hborrowing' hparts
          simp only [List.forall_mem_cons, List.not_mem_nil, false_imp_iff, implies_true, and_true]
          rcases hchunk with ⟨hexact, chunk, b', hrun, hkept, hborrowing''⟩ | ⟨hexact, hrun⟩
          · rw [hrun]
            refine .inl ⟨⟨⟨hcompletes, hexact.1⟩, hexact.2⟩, _, rfl, ?_, hkept, hbuffer, ?_, ?_⟩
            · rw [hconsume, hborrowing''.session]
            · rw [← ConsumedInPlace.memory_eq _ (withBlock (fun _ => []) .header buffer) rfl]
              exact hborrowing''.intact
            · intro v hv hblock
              exact hborrowing''.others v hv (by rw [hblock]; decide)
          · rw [hrun]
            exact .inr ⟨fun h => hexact ⟨h.1.2, h.2⟩, rfl⟩
        · simp only [if_neg hrest] at hconsume ⊢
          simp only [List.forall_mem_cons, List.not_mem_nil, false_imp_iff, implies_true, and_true]
          refine .inl ⟨⟨hcompletes, hparts⟩, _, rfl, ?_, rfl, hbuffer, ?_, fun v hv _ => hempty v hv⟩
          · rw [hconsume, hborrowing.session]
          · rw [← ConsumedInPlace.memory_eq _ (withBlock (fun _ => []) .header buffer) rfl]
            exact hstart data
      · simp only [if_neg hspill] at hconsume ⊢
        have hchunk := consumeChunk_eq variant hstarted (not_not.mp hspill)
          (fun _ => headerBuffer) (Nat.zero_le data.length) (by omega)
          (b := { session := ws.prepare.session }) (s := (ws.prepare.session, []))
          ⟨rfl, hviews _ _, by simp, by simp⟩ (by simp)
        simp only [List.drop_zero, Nat.sub_zero] at hchunk
        simp only [List.mem_singleton, forall_eq]
        rcases hchunk with ⟨hexact, chunk, b, hrun, hkept, hborrowing⟩ | ⟨hexact, hrun⟩
        · rw [hrun]
          refine .inl ⟨hexact, _, rfl, ?_, hkept, hsize, ?_, ?_⟩
          · rw [hconsume, hborrowing.session]
          · rw [← ConsumedInPlace.memory_eq _ (fun _ => headerBuffer) rfl]
            exact hborrowing.intact
          · intro v hv hblock
            exact hborrowing.others v hv (by rw [hblock]; decide)
        · rw [hrun]
          exact .inr ⟨hexact, rfl⟩

end StreamWebSocket

end Eiows
