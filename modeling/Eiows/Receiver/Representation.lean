import Eiows.Receiver.PayloadLimit

/-!
# The representation of the parser state

Which values the bit-fields of `WebSocketState` take between frames and inside one,
and what the saved bytes of a header can be. The rule is for any session whose hooks
keep an invariant of their own: one for the time between frames, one for the time
inside a frame, and one that holds once the session has ended.
-/

namespace Eiows

/-- The header length that saved bytes announce: the shortest one while the length
marker is missing. -/
def impliedHeaderLength (spill : Bytes) : ℕ :=
  if 2 ≤ spill.length then headerLengthOf (payloadLength spill) else shortMessageHeader

/-- Saved bytes of an incomplete header. -/
def IncompleteHeader (spill : Bytes) : Prop :=
  spill.length ≤ 13 ∧ spill.length < impliedHeaderLength spill

/-- The parser inside a frame. The stack has a second entry only for a control frame
that interrupts a message. -/
structure WebSocketState.Reading (w : WebSocketState) : Prop where
  stack : w.opStack = if 3 ≤ w.currentOpCode.value ∧ w.fragmentedMessage = true then 1 else 0
  fin : 3 ≤ w.currentOpCode.value → w.lastFin = true
  left : w.left.Idle

variable {w w' : WebSocketState}

/-- Between frames the stack holds the message in progress. -/
theorem WebSocketState.Idle.stack (h : w.Idle) :
    w.opStack = if w.fragmentedMessage = true then 0 else -1 := by
  rcases h with ⟨hstack, hfragmented⟩ | ⟨hstack, hfragmented, -⟩
  · rw [hstack, hfragmented]
    rfl
  · rw [hstack, hfragmented]
    rfl

theorem WebSocketState.Reading.stack_cases (h : w.Reading) : w.opStack = 0 ∨ w.opStack = 1 := by
  rw [h.stack]
  split_ifs
  · exact .inr rfl
  · exact .inl rfl

/-- A frame that is entered between frames is being read. -/
theorem enterFrame_reading {opCode : OpCode} {fin : Bool} (hw : w.Idle)
    (hfin : 3 ≤ opCode.value → fin = true) (hentered : enterFrame opCode fin w = .ok w') :
    w'.Reading := by
  obtain ⟨hleft, hlast, -, hcurrent⟩ := enterFrame_idle hw hfin hentered
  have hcontrol : 3 ≤ w'.currentOpCode.value → 3 ≤ opCode.value := by
    intro h
    by_contra hdata
    have := hcurrent.mpr (by omega)
    omega
  refine ⟨?_, fun h => hlast.trans (hfin (hcontrol h)), hleft⟩
  rcases opCode.value_cases with rfl | hmessage | hvalue
  · have hdata : ¬3 ≤ w'.currentOpCode.value := fun h => absurd (hcontrol h) (by decide)
    rw [if_neg (fun h => hdata h.1)]
    rcases hw with ⟨-, hfragmented⟩ | ⟨hstack, hfragmented, -⟩
    · simp [enterFrame, hfragmented] at hentered
    · rw [enterFrame_continuation fin hfragmented hstack] at hentered
      cases hentered
      exact hstack
  · have hdata : ¬3 ≤ w'.currentOpCode.value := by
      intro h
      have := hcontrol h
      rcases hmessage with rfl | rfl <;> exact absurd this (by decide)
    rw [if_neg (fun h => hdata h.1)]
    rcases hw with ⟨hstack, hfragmented⟩ | ⟨-, hfragmented, -⟩
    · rw [enterFrame_message fin hmessage hfragmented hstack] at hentered
      cases hentered
      simp [WebSocketState.pushOpCode, hstack]
    · rw [enterFrame, if_pos ⟨hmessage, hfragmented⟩] at hentered
      cases hentered
  · have hcurrent' : 3 ≤ w'.currentOpCode.value := by
      by_contra hdata
      have := hcurrent.mp (by omega)
      omega
    have hopen : w.opStack = -1 ∨ w.opStack = 0 := hw.imp (·.1) (·.1)
    rw [enterFrame_control fin hvalue (by omega)] at hentered
    cases hentered
    simp only [hcurrent', true_and]
    rcases hw with ⟨hstack, hfragmented⟩ | ⟨hstack, hfragmented, -⟩ <;>
      simp [WebSocketState.pushOpCode, hstack, hfragmented]

/-- What a parse leaves unread is an incomplete header. -/
theorem incompleteHeader_of_short {src : Bytes}
    (h : src.length < shortMessageHeader ∨ src.length < headerLengthOf (payloadLength src)) :
    IncompleteHeader src := by
  have hheader := headerLengthOf_cases (payloadLength src)
  simp only [shortMessageHeader] at h
  refine ⟨by omega, ?_⟩
  simp only [impliedHeaderLength, shortMessageHeader]
  split_ifs <;> omega

section Rule

variable {σ : Type}

/-- The hooks keep an invariant of the session: `Between` frames, `Within` a frame with
an opcode of which some payload bytes are to come, and `Closed` when it has ended. -/
structure WebSocketProtocolHooks.Maintain (hooks : WebSocketProtocolHooks σ) (Between : σ → Prop)
    (Within : OpCode → ℕ → σ → Prop) (Closed : σ → Prop) : Prop where
  setCompressed : ∀ s, Between s → Between (hooks.setCompressed s).2
  refused : ∀ length s, Between s → Between (hooks.refusePayloadLength length s).2
  admitted : ∀ length s, Between s → (hooks.refusePayloadLength length s).1 = false →
    length ≤ unsignedMax ∧ ∀ opCode : OpCode, opCode.value < 3 →
      Within opCode length (hooks.refusePayloadLength length s).2
  control : ∀ (opCode : OpCode) length s, Between s → 3 ≤ opCode.value → length ≤ 125 →
    Within opCode length s
  forceClose : ∀ s, Between s → Closed (hooks.forceClose s)
  stop : ∀ data remainingBytes opCode fin s, Within opCode (data.length + remainingBytes) s →
    (3 ≤ opCode.value → fin = true) →
    (hooks.handleFragment data remainingBytes opCode fin s).1 = true →
      Closed (hooks.handleFragment data remainingBytes opCode fin s).2
  next : ∀ data remainingBytes opCode fin s, Within opCode (data.length + remainingBytes) s →
    (3 ≤ opCode.value → fin = true) →
    (hooks.handleFragment data remainingBytes opCode fin s).1 = false →
      Within opCode remainingBytes (hooks.handleFragment data remainingBytes opCode fin s).2 ∧
        (remainingBytes = 0 → Between (hooks.handleFragment data remainingBytes opCode fin s).2)

/-- The parser state represents what has been read. -/
inductive Represents (Between : σ → Prop) (Within : OpCode → ℕ → σ → Prop) (Closed : σ → Prop)
    (w : WebSocketState) (s : σ) : Prop
  | closed (session : Closed s)
  | between (wantsHead : w.wantsHead = true) (idle : w.Idle)
      (spill : w.spill ≠ [] → IncompleteHeader w.spill) (session : Between s)
  | inside (wantsHead : w.wantsHead = false) (reading : w.Reading) (spill : w.spill = [])
      (remaining : w.remainingBytes ≤ unsignedMax) (session : Within w.currentOpCode w.remainingBytes s)

/-- The result of reading a frame, or a part of it. -/
inductive Consumed.Represents (Between : σ → Prop) (Within : OpCode → ℕ → σ → Prop)
    (Closed : σ → Prop) : Consumed σ → Prop
  | closed {w : WebSocketState} {s : σ} (session : Closed s) :
      Consumed.Represents Between Within Closed (.stop w s)
  | inside {w : WebSocketState} {s : σ} (wantsHead : w.wantsHead = false) (reading : w.Reading)
      (spill : w.spill = []) (remaining : w.remainingBytes ≤ unsignedMax)
      (session : Within w.currentOpCode w.remainingBytes s) :
      Consumed.Represents Between Within Closed (.stop w s)
  | next {src : Bytes} {w : WebSocketState} {s : σ} (wantsHead : w.wantsHead = true) (idle : w.Idle)
      (spill : w.spill = []) (session : Between s) :
      Consumed.Represents Between Within Closed (.next src w s)

variable {hooks : WebSocketProtocolHooks σ} {Between : σ → Prop} {Within : OpCode → ℕ → σ → Prop}
  {Closed : σ → Prop} {s : σ} {src : Bytes}

theorem checkCompressed_between (hooked : hooks.Maintain Between Within Closed) (hs : Between s)
    (src : Bytes) : Between (checkCompressed hooks src s).2 := by
  unfold checkCompressed
  split_ifs
  · exact hs
  · exact hooked.setCompressed s hs
  · exact hs

theorem consumeWhole_represents (hooked : hooks.Maintain Between Within Closed)
    {payLength messageHeader : ℕ} (hwants : w.wantsHead = true) (hw : w.Reading)
    (hlast : w.lastFin = isFin src) (hs : Within w.currentOpCode payLength s)
    (hlength : payLength + messageHeader ≤ src.length) :
    (consumeWhole hooks payLength messageHeader src w s).Represents Between Within Closed := by
  have hdata : (unmaskImprecise (readMask src (messageHeader - 4))
      ((src.drop messageHeader).take payLength)).length + 0 = payLength := by
    rw [unmaskImprecise_eq_keystream, keystream_length, List.length_take, List.length_drop]
    omega
  have hfin : 3 ≤ w.currentOpCode.value → isFin src = true := fun h => hlast ▸ hw.fin h
  unfold consumeWhole
  simp only
  split_ifs with hstop hended
  · exact .closed (hooked.stop _ _ _ _ _ (hdata.symm ▸ hs) hfin hstop)
  all_goals
    have hnext := hooked.next _ _ _ _ _ (hdata.symm ▸ hs) hfin (Bool.eq_false_of_not_eq_true hstop)
    refine .next hwants ?_ rfl (hnext.2 rfl)
    have hidle : WebSocketState.Idle { w.left with spill := [] } := hw.left
    simpa [WebSocketState.left, hlast, hended] using hidle

theorem consumePart_represents (hooked : hooks.Maintain Between Within Closed)
    {payLength messageHeader : ℕ} (hw : w.Reading) (hlast : w.lastFin = isFin src)
    (hs : Within w.currentOpCode payLength s) (hpay : payLength ≤ unsignedMax)
    (hheader : messageHeader ≤ src.length) (hlength : src.length < payLength + messageHeader) :
    (consumePart hooks payLength messageHeader src w s).Represents Between Within Closed := by
  have hmod : (payLength + messageHeader - src.length) % 2 ^ 32 =
      payLength + messageHeader - src.length := by
    apply Nat.mod_eq_of_lt
    unfold unsignedMax at hpay
    omega
  have hdata : (unmaskImprecise (readMask src (messageHeader - 4)) (src.drop messageHeader)).length +
      (payLength + messageHeader - src.length) = payLength := by
    rw [unmaskImprecise_eq_keystream, keystream_length, List.length_drop]
    omega
  have hfin : 3 ≤ w.currentOpCode.value → isFin src = true := fun h => hlast ▸ hw.fin h
  unfold consumePart
  simp only [hmod]
  cases hhandled : (hooks.handleFragment (unmaskImprecise (readMask src (messageHeader - 4))
      (src.drop messageHeader)) (payLength + messageHeader - src.length) w.currentOpCode (isFin src)
      s).1 with
  | true => exact .closed (hooked.stop _ _ _ _ _ (hdata.symm ▸ hs) hfin hhandled)
  | false =>
    have hnext := hooked.next _ _ _ _ _ (hdata.symm ▸ hs) hfin hhandled
    exact .inside rfl ⟨hw.stack, hw.fin, hw.left⟩ rfl (by simp only; omega) hnext.1

/-- The opcodes and lengths that a valid header announces. -/
theorem valid_header (hvalid : badHeader src = false) :
    (OpCode.ofNibble (getOpCode src)).value = getOpCode src ∧
      (3 ≤ (OpCode.ofNibble (getOpCode src)).value → isFin src = true ∧ announcedLength src ≤ 125) := by
  simp only [badHeader, Bool.or_eq_false_iff, Bool.and_eq_false_iff, decide_eq_false_iff_not,
    Bool.not_eq_false'] at hvalid
  obtain ⟨⟨⟨-, hreserved⟩, hhigh⟩, hshort⟩ := hvalid
  have hvalue : (OpCode.ofNibble (getOpCode src)).value = getOpCode src :=
    OpCode.value_ofNibble (by omega)
  refine ⟨hvalue, fun h => ?_⟩
  obtain ⟨hfin, hmarker⟩ := hshort.resolve_left (by omega)
  refine ⟨hfin, ?_⟩
  rw [announcedLength, if_pos (by omega)]
  omega

/-- Between frames, a frame with a valid header is read. -/
theorem consumeMessage_represents (hooked : hooks.Maintain Between Within Closed)
    (hwants : w.wantsHead = true) (hw : w.Idle) (hs : Between s)
    (hheader : headerLengthOf (payloadLength src) ≤ src.length) (hvalid : badHeader src = false) :
    (consumeMessage hooks (announcedLength src) (headerLengthOf (payloadLength src)) src w
      s).Represents Between Within Closed := by
  obtain ⟨-, hcontrol⟩ := valid_header hvalid
  unfold consumeMessage
  simp only
  split
  · exact .closed (hooked.forceClose s hs)
  · rename_i w' hentered
    have hreading := enterFrame_reading hw (fun h => (hcontrol h).1) hentered
    obtain ⟨-, hlast, hwants', hcurrent⟩ := enterFrame_idle hw (fun h => (hcontrol h).1) hentered
    have hrefusal : Between (refuseFrame hooks (OpCode.ofNibble (getOpCode src)) (announcedLength src)
        s).2 ∧ ((refuseFrame hooks (OpCode.ofNibble (getOpCode src)) (announcedLength src) s).1 = false →
          announcedLength src ≤ unsignedMax ∧ Within w'.currentOpCode (announcedLength src)
            (refuseFrame hooks (OpCode.ofNibble (getOpCode src)) (announcedLength src) s).2) := by
      unfold refuseFrame
      split_ifs with hdata
      · refine ⟨hooked.refused _ s hs, fun hgoes => ?_⟩
        obtain ⟨hlength, hwithin⟩ := hooked.admitted _ s hs hgoes
        exact ⟨hlength, hwithin _ (hcurrent.mpr (by omega))⟩
      · have hlength := (hcontrol (by omega)).2
        refine ⟨hs, fun _ => ⟨by unfold unsignedMax; omega, ?_⟩⟩
        refine hooked.control _ _ s hs ?_ hlength
        by_contra hdata'
        have := hcurrent.mp (by omega)
        omega
    split_ifs with hrefused hwhole
    · exact .closed (hooked.forceClose _ hrefusal.1)
    · exact consumeWhole_represents hooked (hwants'.trans hwants) hreading hlast
        (hrefusal.2 (by simpa using hrefused)).2 hwhole
    · obtain ⟨hlength, hwithin⟩ := hrefusal.2 (by simpa using hrefused)
      exact consumePart_represents hooked hreading hlast hwithin hlength hheader (by omega)

/-- The loop over the frames of a chunk. Nothing is left unread of a chunk that has
been read up to its end, so nothing may be saved then. -/
theorem parseNext_represents (hooked : hooks.Maintain Between Within Closed) (n : ℕ) :
    ∀ {src : Bytes} {w : WebSocketState} {s : σ}, src.length = n → w.wantsHead = true → w.Idle →
      (src = [] → w.spill = []) → Between s →
        Represents Between Within Closed (parseNext hooks src w s).1 (parseNext hooks src w s).2 := by
  induction n using Nat.strong_induction_on with
  | _ n ih =>
    intro src w s hn hwants hw hspill hs
    by_cases hshort : src.length < shortMessageHeader ∨
        src.length < headerLengthOf (payloadLength src)
    · rw [parseNext_of_incomplete hooks hshort]
      split_ifs with hempty
      · exact .between hwants hw (fun h => absurd (hspill hempty) h) hs
      · exact .between hwants hw (fun _ => incompleteHeader_of_short hshort) hs
    · rw [parseNext_of_complete hooks hshort]
      have hchecked := checkCompressed_between hooked hs src
      split_ifs with hbad
      · exact .closed (hooked.forceClose _ hchecked)
      · have hvalid : badHeader src = false := by
          simp only [Bool.or_eq_true, not_or, Bool.not_eq_true] at hbad
          exact hbad.1.2
        have hconsumed := consumeMessage_represents hooked hwants hw hchecked (by omega) hvalid
        cases hresult : consumeMessage hooks (announcedLength src)
            (headerLengthOf (payloadLength src)) src w (checkCompressed hooks src s).2 with
        | stop w' s' =>
          rw [hresult] at hconsumed
          cases hconsumed with
          | closed hclosed => exact .closed hclosed
          | inside hwants' hw' hspill' hremaining hs' =>
            exact .inside hwants' hw' hspill' hremaining hs'
        | next rest w' s' =>
          rw [hresult] at hconsumed
          have hrest := consumeMessage_next hooks hresult
          have hheader := headerLengthOf_cases (payloadLength src)
          cases hconsumed with
          | next hwants' hw' hspill' hs' =>
            refine ih rest.length ?_ rfl hwants' hw' (fun _ => hspill') hs'
            rw [hrest, List.length_drop]
            omega

/-- A header that is complete, with nothing behind it, is not saved again. -/
theorem parseNext_savedHeader (hooked : hooks.Maintain Between Within Closed) (hwants : w.wantsHead = true)
    (hw : w.Idle) (hs : Between s) (hlength : src.length = headerLengthOf (payloadLength src)) :
    Closed (parseNext hooks src w s).2 ∨ (parseNext hooks src w s).1.spill = [] := by
  have hheader := headerLengthOf_cases (payloadLength src)
  have hcomplete : ¬(src.length < shortMessageHeader ∨
      src.length < headerLengthOf (payloadLength src)) := by
    unfold shortMessageHeader
    omega
  rw [parseNext_of_complete hooks hcomplete]
  have hchecked := checkCompressed_between hooked hs src
  split_ifs with hbad
  · exact .inl (hooked.forceClose _ hchecked)
  · have hvalid : badHeader src = false := by
      simp only [Bool.or_eq_true, not_or, Bool.not_eq_true] at hbad
      exact hbad.1.2
    have hconsumed := consumeMessage_represents hooked hwants hw hchecked (by omega) hvalid
    cases hresult : consumeMessage hooks (announcedLength src) (headerLengthOf (payloadLength src)) src
        w (checkCompressed hooks src s).2 with
    | stop w' s' =>
      rw [hresult] at hconsumed
      cases hconsumed with
      | closed hclosed => exact .inl hclosed
      | inside hwants' hw' hspill hremaining hs' => exact .inr hspill
    | next rest w' s' =>
      rw [hresult] at hconsumed
      have hnone : rest = [] := by
        rw [consumeMessage_next hooks hresult]
        apply List.drop_of_length_le
        omega
      cases hconsumed with
      | next hwants' hw' hspill hs' =>
        rw [Consumed.resume, hnone, parseNext_of_incomplete hooks (.inl (by decide)), if_pos rfl]
        exact .inr hspill

theorem consumeContinuation_represents (hooked : hooks.Maintain Between Within Closed) (src : Bytes)
    (hwants : w.wantsHead = false) (hw : w.Reading) (hspill : w.spill = [])
    (hremaining : w.remainingBytes ≤ unsignedMax) (hs : Within w.currentOpCode w.remainingBytes s) :
    (consumeContinuation hooks src w s).Represents Between Within Closed := by
  unfold consumeContinuation
  simp only
  by_cases hwhole : w.remainingBytes ≤ src.length
  · rw [if_pos hwhole]
    have hdata : (unmaskFinal (src.take w.remainingBytes) w.mask).length + 0 = w.remainingBytes := by
      rw [unmaskFinal_length, List.length_take]
      omega
    split_ifs with hstop hlast
    · exact .closed (hooked.stop _ _ _ _ _ (hdata.symm ▸ hs) hw.fin hstop)
    all_goals
      have hnext := hooked.next _ _ _ _ _ (hdata.symm ▸ hs) hw.fin (Bool.eq_false_of_not_eq_true hstop)
      refine .next rfl ?_ hspill (hnext.2 rfl)
      have hidle : WebSocketState.Idle { w.left with wantsHead := true } := hw.left
      simpa [WebSocketState.left, hlast] using hidle
  · rw [if_neg hwhole]
    have hdata : (unmaskInplace src src.length w.mask).length + (w.remainingBytes - src.length) =
        w.remainingBytes := by
      rw [unmaskInplace_length, keystream_length]
      omega
    split_ifs with hstop hrotated
    · exact .closed (hooked.stop _ _ _ _ _ (hdata.symm ▸ hs) hw.fin hstop)
    all_goals
      have hnext := hooked.next _ _ _ _ _ (hdata.symm ▸ hs) hw.fin (Bool.eq_false_of_not_eq_true hstop)
      exact .inside hwants ⟨hw.stack, hw.fin, hw.left⟩ hspill (by simp only; omega) hnext.1

/-- A call of the parser keeps the representation, from a session that goes on. -/
theorem consume_represents (hooked : hooks.Maintain Between Within Closed)
    (h : Represents Between Within Closed w s) (hopen : ¬Closed s) (src : Bytes) :
    Represents Between Within Closed (consume hooks src w s).1 (consume hooks src w s).2 := by
  unfold consume
  cases h with
  | closed hclosed => exact absurd hclosed hopen
  | between hwants hw hspill hs =>
    rw [if_pos hwants]
    exact parseNext_represents hooked _ rfl hwants hw (fun h => (List.append_eq_nil_iff.mp h).1) hs
  | inside hwants hw hspill hremaining hs =>
    rw [if_neg (by rw [hwants]; decide)]
    have hconsumed := consumeContinuation_represents hooked (w.spill ++ src) hwants hw hspill
      hremaining hs
    cases hresult : consumeContinuation hooks (w.spill ++ src) w s with
    | stop w' s' =>
      rw [hresult] at hconsumed
      cases hconsumed with
      | closed hclosed => exact .closed hclosed
      | inside hwants' hw' hspill' hremaining' hs' =>
        exact .inside hwants' hw' hspill' hremaining' hs'
    | next rest w' s' =>
      rw [hresult] at hconsumed
      cases hconsumed with
      | next hwants' hw' hspill' hs' =>
        exact parseNext_represents hooked _ rfl hwants' hw' (fun _ => hspill') hs'

end Rule

variable {Z : Zlib}

namespace Session

/-- Inside a frame of which `remaining` payload bytes are to come. The parts of a
control frame are at the end of the fragment buffer. -/
structure Collecting (opCode : OpCode) (remaining : ℕ) (s : Session Z) : Prop where
  closing : s.closing = false
  data : opCode.value < 3 → s.controlTipLength = 0
  control : 3 ≤ opCode.value →
    s.controlTipLength + remaining ≤ 125 ∧ s.controlTipLength ≤ s.fragmentBuffer.length

/-- An open session between frames. -/
def Unoccupied (s : Session Z) : Prop := s.closing = false ∧ s.controlTipLength = 0

variable {s : Session Z}

theorem fail_closing (code : ℕ) : (s.fail code).closing = true := by
  unfold fail
  simp only
  split_ifs with hclosing
  · exact hclosing
  · rfl
  · rfl

theorem failWith_closing (code : ℕ) : (s.failWith code).closing = true := fail_closing code

theorem completeClose_closing (payload : Bytes) : (s.completeClose payload).closing = true := by
  unfold completeClose
  simp only
  split_ifs
  · exact failWith_closing 1002
  · rfl
  · rfl

/-- A message is refused, and the session ends, or it is reported. -/
theorem completeMessage_tip (data : Bytes) (opCode : OpCode) :
    ((s.completeMessage data opCode).1 = true → (s.completeMessage data opCode).2.closing = true) ∧
      ((s.completeMessage data opCode).1 = false →
        (s.completeMessage data opCode).2.closing = s.closing ∧
          (s.completeMessage data opCode).2.controlTipLength = s.controlTipLength) := by
  have hemit : ∀ (s : Session Z) (data : Bytes),
      ((s.emitMessage data opCode).1 = true → (s.emitMessage data opCode).2.closing = true) ∧
        ((s.emitMessage data opCode).1 = false → (s.emitMessage data opCode).2.closing = s.closing ∧
          (s.emitMessage data opCode).2.controlTipLength = s.controlTipLength) := by
    intro s data
    unfold emitMessage
    split_ifs
    · exact ⟨fun _ => failWith_closing 1007, fun h => by cases h⟩
    · exact ⟨fun h => (by cases h), fun _ => ⟨rfl, rfl⟩⟩
  unfold completeMessage
  split_ifs with hcompressed
  · obtain ⟨-, -, hclosing, -, htip, -⟩ :=
      inflateMessage_limited (s := { s with compressionStatus := .enabled }) rfl data
    simp only
    split_ifs
    · exact ⟨fun _ => failWith_closing _, fun h => by cases h⟩
    · obtain ⟨hstop, hgoes⟩ := hemit ({ s with compressionStatus := .enabled }.inflateMessage
        data).2.2 ({ s with compressionStatus := .enabled }.inflateMessage data).2.1
      exact ⟨hstop, fun h => ⟨(hgoes h).1.trans hclosing, (hgoes h).2.trans htip⟩⟩
  · exact hemit s data

theorem handleData_tip (data : Bytes) (remainingBytes : ℕ) (opCode : OpCode) (fin : Bool) :
    ((s.handleData data remainingBytes opCode fin).1 = true →
        (s.handleData data remainingBytes opCode fin).2.closing = true) ∧
      ((s.handleData data remainingBytes opCode fin).1 = false →
        (s.handleData data remainingBytes opCode fin).2.closing = s.closing ∧
          (s.handleData data remainingBytes opCode fin).2.controlTipLength = s.controlTipLength) := by
  unfold handleData
  by_cases hdirect : remainingBytes = 0 ∧ fin = true ∧ s.fragmentBuffer = []
  · rw [if_pos hdirect]
    exact completeMessage_tip data opCode
  · rw [if_neg hdirect]
    by_cases hfits : s.fragmentBuffer.length + data.length + remainingBytes ≤ payloadLimit s.maxPayload
    · rw [appendFragment_of_le hfits]
      simp only [Bool.not_true, Bool.false_eq_true, if_false]
      obtain ⟨hstop, hgoes⟩ := completeMessage_tip (s := { s with
        fragmentBuffer := s.fragmentBuffer ++ data }) (s.fragmentBuffer ++ data) opCode
      split_ifs with hlast hended
      · exact ⟨hstop, fun h => absurd (hended.symm.trans h) (by decide)⟩
      · exact ⟨fun h => (by cases h), fun _ => hgoes (Bool.eq_false_of_not_eq_true hended)⟩
      · exact ⟨fun h => (by cases h), fun _ => ⟨rfl, rfl⟩⟩
    · rw [appendFragment_of_lt (by omega)]
      exact ⟨fun _ => failWith_closing 1009, fun h => by cases h⟩

/-- A part of a control frame is answered, collected, or ends the session. -/
theorem handleControl_collecting {data : Bytes} {remainingBytes : ℕ} {opCode : OpCode}
    (hopen : s.closing = false) (hcontrol : 3 ≤ opCode.value)
    (hlength : s.controlTipLength + (data.length + remainingBytes) ≤ 125)
    (hbuffer : s.controlTipLength ≤ s.fragmentBuffer.length) :
    ((s.handleControl data remainingBytes opCode true).1 = true →
        (s.handleControl data remainingBytes opCode true).2.closing = true) ∧
      ((s.handleControl data remainingBytes opCode true).1 = false →
        (s.handleControl data remainingBytes opCode true).2.Collecting opCode remainingBytes ∧
          (remainingBytes = 0 →
            (s.handleControl data remainingBytes opCode true).2.Unoccupied)) := by
  have hcollecting : ∀ s' : Session Z, s'.closing = false →
      s'.controlTipLength + remainingBytes ≤ 125 → s'.controlTipLength ≤ s'.fragmentBuffer.length →
        (remainingBytes = 0 → s'.controlTipLength = 0) →
          s'.Collecting opCode remainingBytes ∧ (remainingBytes = 0 → s'.Unoccupied) := by
    intro s' hopen' hrest hbuffer' hzero
    exact ⟨⟨hopen', fun h => absurd hcontrol (by omega), fun _ => ⟨hrest, hbuffer'⟩⟩,
      fun h => ⟨hopen', hzero h⟩⟩
  have htip : (s.controlTipLength + data.length % 256) % 256 = s.controlTipLength + data.length := by
    omega
  unfold handleControl
  by_cases hdirect : remainingBytes = 0 ∧ true = true ∧ s.controlTipLength = 0
  · rw [if_pos hdirect]
    obtain ⟨hlast, -, hzero⟩ := hdirect
    split_ifs
    · exact ⟨fun _ => completeClose_closing data, fun h => by cases h⟩
    · exact ⟨fun h => (by cases h), fun _ => hcollecting (s.emitFrame _) hopen (by
        show s.controlTipLength + remainingBytes ≤ 125
        omega) hbuffer (fun _ => hzero)⟩
    · exact ⟨fun h => (by cases h), fun _ => hcollecting s hopen (by omega) hbuffer (fun _ => hzero)⟩
  · rw [if_neg hdirect]
    simp only [htip, and_true]
    split_ifs with hlast hclose hping
    · exact ⟨fun _ => completeClose_closing _, fun h => by cases h⟩
    · exact ⟨fun h => (by cases h), fun _ => hcollecting _ hopen (by simp only; omega)
        (Nat.zero_le _) (fun _ => rfl)⟩
    · exact ⟨fun h => (by cases h), fun _ => hcollecting _ hopen (by simp only; omega)
        (Nat.zero_le _) (fun _ => rfl)⟩
    · refine ⟨fun h => (by cases h), fun _ => hcollecting _ hopen ?_ ?_ (fun h => absurd h hlast)⟩
      · simp only
        omega
      · simp only [List.length_append]
        omega

/-- A part of a frame ends the session, or the session goes on collecting. -/
theorem handleFragment_collecting {data : Bytes} {remainingBytes : ℕ} {opCode : OpCode} {fin : Bool}
    (h : s.Collecting opCode (data.length + remainingBytes)) (hfin : 3 ≤ opCode.value → fin = true) :
    ((s.handleFragment data remainingBytes opCode fin).1 = true →
        (s.handleFragment data remainingBytes opCode fin).2.closing = true) ∧
      ((s.handleFragment data remainingBytes opCode fin).1 = false →
        (s.handleFragment data remainingBytes opCode fin).2.Collecting opCode remainingBytes ∧
          (remainingBytes = 0 →
            (s.handleFragment data remainingBytes opCode fin).2.Unoccupied)) := by
  by_cases hdata : opCode.value < 3
  · have htip := h.data hdata
    have hgoes : ∀ s' : Session Z, s'.closing = s.closing → s'.controlTipLength = s.controlTipLength →
        s'.Collecting opCode remainingBytes ∧ (remainingBytes = 0 → s'.Unoccupied) := by
      intro s' hclosing htip'
      exact ⟨⟨hclosing.trans h.closing, fun _ => htip'.trans htip, fun hcontrol => by omega⟩,
        fun _ => ⟨hclosing.trans h.closing, htip'.trans htip⟩⟩
    cases hsent : s.closeSent with
    | true =>
      rw [handleFragment_ignored data _ fin h.closing hsent hdata]
      exact ⟨fun h => (by cases h), fun _ => hgoes s rfl rfl⟩
    | false =>
      rw [handleFragment_data data _ fin h.closing hsent hdata]
      obtain ⟨hstop, hnext⟩ := s.handleData_tip data remainingBytes opCode fin
      exact ⟨hstop, fun hfalse => hgoes _ (hnext hfalse).1 (hnext hfalse).2⟩
  · have hcontrol : 3 ≤ opCode.value := by omega
    obtain ⟨hlength, hbuffer⟩ := h.control hcontrol
    rw [handleFragment_control data _ fin h.closing hcontrol, hfin hcontrol]
    exact handleControl_collecting h.closing hcontrol hlength hbuffer

end Session

/-- The session keeps what the parser state relies on. -/
theorem protocolHooks_maintain : (protocolHooks (Z := Z)).Maintain Session.Unoccupied
    Session.Collecting (fun s => s.closing = true) := by
  constructor
  · rintro s ⟨hopen, htip⟩
    simp only [protocolHooks, Session.setCompressed]
    split_ifs <;> exact ⟨hopen, htip⟩
  · rintro length s ⟨hopen, htip⟩
    simp only [protocolHooks, Session.refusePayloadLength]
    split_ifs <;> exact ⟨hopen, htip⟩
  · rintro length s ⟨hopen, htip⟩ hgoes
    simp only [protocolHooks, Session.refusePayloadLength] at hgoes ⊢
    split_ifs at hgoes ⊢ with hlong
    refine ⟨by omega, fun opCode hdata => ⟨hopen, fun _ => htip, fun hcontrol => by omega⟩⟩
  · rintro opCode length s ⟨hopen, htip⟩ hcontrol hlength
    exact ⟨hopen, fun hdata => (by omega), fun _ => ⟨by omega, by omega⟩⟩
  · intro s _
    exact Session.fail_closing s.failureCode
  · intro data remainingBytes opCode fin s h hfin
    exact (Session.handleFragment_collecting h hfin).1
  · intro data remainingBytes opCode fin s h hfin
    exact (Session.handleFragment_collecting h hfin).2

section SavedHeader

variable {spill data : Bytes}

/-- The bytes that a saved header takes from a chunk. -/
def takenForHeader (spill data : Bytes) : ℕ :=
  min data.length (StreamWebSocket.spilledHeaderLength spill data - spill.length)

theorem spill_lt_spilledHeaderLength (h : IncompleteHeader spill) (data : Bytes) :
    spill.length < StreamWebSocket.spilledHeaderLength spill data := by
  have hlength := h.2
  unfold impliedHeaderLength at hlength
  unfold StreamWebSocket.spilledHeaderLength
  split_ifs at hlength ⊢ with hmarker
  · exact hlength
  · have hheader := headerLengthOf_cases (byteAt data 0 &&& 127).toNat
    omega

/-- The marker is found in the saved bytes, or at the front of the chunk. -/
theorem spilledHeaderLength_eq (hspill : spill ≠ []) {copied : ℕ} (hcopied : 0 < copied) :
    StreamWebSocket.spilledHeaderLength spill data = headerLengthOf (payloadLength (spill ++ data.take copied)) := by
  have hmarker : byteAt (spill ++ data.take copied) 1 =
      if 2 ≤ spill.length then byteAt spill 1 else byteAt data 0 := by
    cases spill with
    | nil => exact absurd rfl hspill
    | cons first rest =>
      cases rest with
      | nil =>
        obtain ⟨count, rfl⟩ : ∃ count, copied = count + 1 := ⟨copied - 1, by omega⟩
        cases data <;> rfl
      | cons second rest => rfl
  rw [payloadLength, hmarker]
  rfl

/-- The header is completed as far as the chunk goes, and no further. -/
theorem savedHeader_length (hspill : spill ≠ []) (h : IncompleteHeader spill) (hdata : data ≠ []) :
    (spill ++ data.take (takenForHeader spill data)).length ≤
        headerLengthOf (payloadLength (spill ++ data.take (takenForHeader spill data))) ∧
      (takenForHeader spill data < data.length →
        (spill ++ data.take (takenForHeader spill data)).length =
          headerLengthOf (payloadLength (spill ++ data.take (takenForHeader spill data)))) := by
  have hmissing := spill_lt_spilledHeaderLength h data
  have hpos := List.length_pos_of_ne_nil hdata
  have hcopied : 0 < takenForHeader spill data := by
    unfold takenForHeader
    omega
  rw [← spilledHeaderLength_eq hspill hcopied, List.length_append, List.length_take]
  unfold takenForHeader
  constructor
  · omega
  · intro hlt
    omega

end SavedHeader

namespace StreamWebSocket

/-- The invariant of the parser and its session. -/
def Representation (ws : StreamWebSocket Z) : Prop :=
  Represents Session.Unoccupied Session.Collecting (fun s => s.closing = true) ws.parser ws.session

variable {ws : StreamWebSocket Z}

/-- The invariant does not look at the events, the failure code and the contexts. -/
theorem Representation.same {s' : Session Z} (h : ws.Representation)
    (hclosing : s'.closing = ws.session.closing)
    (htip : s'.controlTipLength = ws.session.controlTipLength)
    (hbuffer : s'.fragmentBuffer = ws.session.fragmentBuffer) :
    ({ ws with session := s' } : StreamWebSocket Z).Representation := by
  cases h with
  | closed hclosed => exact .closed (hclosing.trans hclosed)
  | between hwants hw hspill hs =>
    exact .between hwants hw hspill ⟨hclosing.trans hs.1, htip.trans hs.2⟩
  | inside hwants hw hspill hremaining hs =>
    refine .inside hwants hw hspill hremaining ⟨hclosing.trans hs.closing, ?_, ?_⟩
    · rw [htip]
      exact hs.data
    · rw [htip, hbuffer]
      exact hs.control

theorem Representation.prepare (h : ws.Representation) : ws.prepare.Representation :=
  @Representation.same _ ws ws.prepare.session h rfl rfl rfl

theorem create_representation (negotiatedOptions serverMaxWindowBits maxPayload : ℕ)
    (context : Option (CompressionContext Z)) :
    (create negotiatedOptions serverMaxWindowBits maxPayload context).Representation := by
  refine .between rfl (.inl ⟨rfl, rfl⟩) (fun h => absurd rfl h) ?_
  simp only [create, Session.create]
  split_ifs <;> exact ⟨rfl, rfl⟩

theorem feedParser_representation (h : ws.Representation) (hopen : ws.session.closing = false)
    (data : Bytes) : (ws.feedParser data).Representation :=
  Eiows.consume_represents protocolHooks_maintain h (by simp [hopen]) data

/-- A chunk keeps the representation. -/
theorem consume_representation (h : ws.Representation) (data : Bytes) :
    (ws.consume data).Representation := by
  have hprepared := h.prepare
  unfold consume
  simp only
  split_ifs with hended hlong hspill hrest
  · exact hprepared
  · exact .closed (Session.failWith_closing 1009)
  all_goals
    have hopen : ws.prepare.session.closing = false := by
      simpa using (not_or.mp hended).1
  · apply feedParser_representation (feedParser_representation hprepared hopen _)
    simpa using hrest.1
  · exact feedParser_representation hprepared hopen _
  · exact feedParser_representation hprepared hopen _

/-- Every call keeps the representation. -/
theorem invoke_representation (h : ws.Representation) (call : SessionCall Z) :
    (ws.invoke call).2.Representation := by
  cases call with
  | consume data => exact consume_representation h data
  | createFrame data opCode compress =>
    have hdeflate : ({ ws with session := (ws.session.deflateMessage data).2 } :
        StreamWebSocket Z).Representation := by
      obtain ⟨shared, own, hresult, -⟩ := ws.session.deflateMessage_spec data
      rw [hresult]
      exact h.same rfl rfl rfl
    simp only [invoke, createFrame]
    split_ifs
    · exact h
    · exact h
    · split <;> rename_i hresult <;> simpa only [hresult] using hdeflate
    · exact h
  | createCloseFrame code message =>
    simp only [invoke, createCloseFrame]
    split_ifs
    · exact h
    · exact h.same rfl rfl rfl
  | contextUsed context => exact h.same rfl rfl rfl

theorem invokeAll_representation (h : ws.Representation) (calls : List (SessionCall Z)) :
    (ws.invokeAll calls).2.Representation := by
  induction calls generalizing ws with
  | nil => exact h
  | cons call rest ih => exact ih (invoke_representation h call)

/-- The call that follows a completed header starts with nothing saved. -/
theorem feedParser_savedHeader (h : ws.Representation) (hopen : ws.session.closing = false)
    (hspill : ws.parser.spill ≠ []) {data : Bytes}
    (hrest : takenForHeader ws.parser.spill data < data.length)
    (hgoes : (ws.feedParser (data.take (takenForHeader ws.parser.spill data))).session.closing =
      false) :
    (ws.feedParser (data.take (takenForHeader ws.parser.spill data))).parser.spill = [] := by
  cases h with
  | closed hclosed => exact absurd hclosed (by simp [hopen])
  | inside _ _ hnone _ _ => exact absurd hnone hspill
  | between hwants hw hincomplete hs =>
    have hdata : data ≠ [] := by
      rintro rfl
      cases hrest
    obtain ⟨-, hcomplete⟩ := savedHeader_length hspill (hincomplete hspill) hdata
    have hheader := parseNext_savedHeader protocolHooks_maintain hwants hw hs (hcomplete hrest)
    have hfeed : ws.feedParser (data.take (takenForHeader ws.parser.spill data)) =
        ⟨(parseNext protocolHooks (ws.parser.spill ++ data.take (takenForHeader ws.parser.spill data))
          ws.parser ws.session).1, (parseNext protocolHooks (ws.parser.spill ++
            data.take (takenForHeader ws.parser.spill data)) ws.parser ws.session).2⟩ := by
      simp only [feedParser, Eiows.consume, if_pos hwants]
    rw [hfeed] at hgoes ⊢
    rcases hheader with hclosed | hnone
    · exact absurd (hclosed.symm.trans hgoes) (by decide)
    · exact hnone

end StreamWebSocket

end Eiows
