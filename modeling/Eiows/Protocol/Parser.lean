import Eiows.Protocol.Frame

/-!
# The frame parser

`WebSocketProtocol` reads frames from the chunks of a connection. Between
chunks it keeps an incomplete header in `spill`, or the number of missing
payload bytes with the rotated mask. It knows its session only through four
hooks. The payload of a frame is unmasked in place; here every hook receives
the unmasked bytes.
-/

namespace Eiows

/-- `WebSocketState`. `spill` holds the `spillLength` saved bytes, and `opStack`
indexes `opCode`. -/
structure WebSocketState where
  wantsHead : Bool := true
  spill : Bytes := []
  opStack : ℤ := -1
  lastFin : Bool := true
  fragmentedMessage : Bool := false
  opCode : Vector OpCode 2 := #v[.none, .none]
  remainingBytes : ℕ := 0
  mask : Mask := #v[0, 0, 0, 0]
  deriving DecidableEq

/-- `state.opCode[state.opStack]`. -/
def WebSocketState.currentOpCode (w : WebSocketState) : OpCode :=
  w.opCode.getD w.opStack.toNat .none

/-- `state.opCode[++state.opStack] = opCode`. -/
def WebSocketState.pushOpCode (w : WebSocketState) (opCode : OpCode) : WebSocketState :=
  { w with
    opStack := w.opStack + 1
    opCode := w.opCode.setIfInBounds (w.opStack + 1).toNat opCode }

/-- `WebSocketProtocolHooks`, over the state `σ` of the session. -/
structure WebSocketProtocolHooks (σ : Type) where
  refusePayloadLength : ℕ → σ → Bool × σ
  setCompressed : σ → Bool × σ
  forceClose : σ → σ
  handleFragment : Bytes → ℕ → OpCode → Bool → σ → Bool × σ

/-- How `consumeMessage` and `consumeContinuation` end: the parser waits for
the next chunk, or it continues with the rest of this one. -/
inductive Consumed (σ : Type) where
  | stop (w : WebSocketState) (s : σ)
  | next (src : Bytes) (w : WebSocketState) (s : σ)

/-- The bookkeeping of `consumeMessage` before the payload length is looked at:
fragmentation, opcode stack, and `lastFin`. An error is a forced close, with
the state reached by then. -/
def enterFrame (opCode : OpCode) (fin : Bool) (w : WebSocketState) :
    Except WebSocketState WebSocketState :=
  if (opCode = .text ∨ opCode = .binary) ∧ w.fragmentedMessage then .error w
  else if opCode = .none ∧ !w.fragmentedMessage then .error w
  else
    let w := { w with
      fragmentedMessage :=
        if opCode = .text ∨ opCode = .binary then !fin
        else if opCode = .none ∧ fin then false
        else w.fragmentedMessage }
    if opCode ≠ .none then
      if w.opStack = 1 then .error w
      else .ok { w.pushOpCode opCode with lastFin := fin }
    else if w.opStack = -1 then .error w
    else .ok { w with lastFin := fin }

variable {σ : Type} (hooks : WebSocketProtocolHooks σ)

/-- `opCode <= BINARY && hooks.refusePayloadLength(payLength, wState)`. -/
def refuseFrame (opCode : OpCode) (payLength : ℕ) (s : σ) : Bool × σ :=
  if opCode.value ≤ 2 then hooks.refusePayloadLength payLength s else (false, s)

/-- `consumeMessage` where the whole payload is available. -/
def consumeWhole (payLength messageHeader : ℕ) (src : Bytes) (w : WebSocketState) (s : σ) :
    Consumed σ :=
  let fin := isFin src
  let data := unmaskImprecise (readMask src (messageHeader - 4))
    ((src.drop messageHeader).take payLength)
  let handled := hooks.handleFragment data 0 w.currentOpCode fin s
  if handled.1 then .stop w handled.2
  else
    .next (src.drop (payLength + messageHeader))
      { w with opStack := if fin then w.opStack - 1 else w.opStack, spill := [] } handled.2

/-- `consumeMessage` where only a part of the payload is available. The result
of the hook is not looked at. -/
def consumePart (payLength messageHeader : ℕ) (src : Bytes) (w : WebSocketState) (s : σ) :
    Consumed σ :=
  let mask := readMask src (messageHeader - 4)
  let data := unmaskImprecise mask (src.drop messageHeader)
  let w := { w with
    spill := []
    wantsHead := false
    remainingBytes := (payLength + messageHeader - src.length) % 2 ^ 32
    mask := rotateMask (4 - (src.length - messageHeader) % 4) mask }
  .stop w (hooks.handleFragment data w.remainingBytes w.currentOpCode (isFin src) s).2

/-- `consumeMessage`: one frame whose header is complete. The payload is read
whole, or its available part is handed on and the rest awaited. -/
def consumeMessage (payLength messageHeader : ℕ) (src : Bytes) (w : WebSocketState) (s : σ) :
    Consumed σ :=
  let opCode := OpCode.ofNibble (getOpCode src)
  match enterFrame opCode (isFin src) w with
  | .error w => .stop w (hooks.forceClose s)
  | .ok w =>
    let refusal := refuseFrame hooks opCode payLength s
    if refusal.1 then .stop w (hooks.forceClose refusal.2)
    else if payLength + messageHeader ≤ src.length then
      consumeWhole hooks payLength messageHeader src w refusal.2
    else consumePart hooks payLength messageHeader src w refusal.2

/-- `consumeContinuation`: the next bytes of a frame whose header was read with
an earlier chunk. -/
def consumeContinuation (src : Bytes) (w : WebSocketState) (s : σ) : Consumed σ :=
  if w.remainingBytes ≤ src.length then
    let data := unmaskFinal (src.take w.remainingBytes) w.mask
    let handled := hooks.handleFragment data 0 w.currentOpCode w.lastFin s
    if handled.1 then .stop w handled.2
    else
      .next (src.drop w.remainingBytes)
        { w with opStack := if w.lastFin then w.opStack - 1 else w.opStack, wantsHead := true }
        handled.2
  else
    let data := unmaskInplace src src.length w.mask
    let w := { w with remainingBytes := w.remainingBytes - src.length }
    let handled := hooks.handleFragment data w.remainingBytes w.currentOpCode w.lastFin s
    if handled.1 then .stop w handled.2
    else if src.length % 4 ≠ 0 then
      .stop { w with mask := rotateMask (4 - src.length % 4) w.mask } handled.2
    else .stop w handled.2

/-- The extended length of a complete header is not the shortest encoding, or
has its highest bit set. -/
def badExtendedLength (src : Bytes) : Bool :=
  if payloadLength src < 126 then false
  else if payloadLength src = 126 then readUint16BE src 2 < 126
  else 2 ^ 63 ≤ readUint64BE src 2 || readUint64BE src 2 ≤ 65535

/-- `invalidCompressedFrame`: RSV1 where compression is not allowed. The hook is
asked only for the first frame of a data message. -/
def checkCompressed (src : Bytes) (s : σ) : Bool × σ :=
  if rsv1 src then
    if getOpCode src = 0 ∨ 2 < getOpCode src then (true, s)
    else (!(hooks.setCompressed s).1, (hooks.setCompressed s).2)
  else (false, s)

/-- The header checks of `consume` that need no session. -/
def badHeader (src : Bytes) : Bool :=
  !isMasked src || rsv23 src || (2 < getOpCode src && getOpCode src < 8) || 10 < getOpCode src ||
    (2 < getOpCode src && (!isFin src || 125 < payloadLength src))

/-- Continuing after a whole frame drops its header and payload. -/
theorem consumeMessage_next {payLength messageHeader : ℕ} {src src' : Bytes}
    {w w' : WebSocketState} {s s' : σ}
    (h : consumeMessage hooks payLength messageHeader src w s = .next src' w' s') :
    src' = src.drop (payLength + messageHeader) := by
  simp only [consumeMessage] at h
  split at h
  · cases h
  · split at h
    · cases h
    · split at h
      · simp only [consumeWhole] at h
        split at h <;> cases h
        rfl
      · simp only [consumePart, reduceCtorEq] at h

/-- A proper part of the payload that the session takes leaves a shorter rest
and the mask turned to it. -/
theorem consumeContinuation_of_lt {src : Bytes} {w : WebSocketState} {s s' : σ}
    (hlt : src.length < w.remainingBytes)
    (hhandled : hooks.handleFragment (unmaskInplace src src.length w.mask)
      (w.remainingBytes - src.length) w.currentOpCode w.lastFin s = (false, s')) :
    consumeContinuation hooks src w s =
      .stop { w with
        remainingBytes := w.remainingBytes - src.length
        mask := if src.length % 4 ≠ 0 then rotateMask (4 - src.length % 4) w.mask else w.mask }
        s' := by
  have hcurrent : WebSocketState.currentOpCode
      { w with remainingBytes := w.remainingBytes - src.length } = w.currentOpCode := rfl
  simp only [consumeContinuation, if_neg (Nat.not_le.mpr hlt), hcurrent, hhandled,
    Bool.false_eq_true, if_false]
  split_ifs <;> rfl

/-- The loop at `parseNext`: read frames while their headers are complete, then
save the remaining bytes. -/
def parseNext (src : Bytes) (w : WebSocketState) (s : σ) : WebSocketState × σ :=
  if src.length < shortMessageHeader ∨ src.length < headerLengthOf (payloadLength src) then
    if src = [] then (w, s) else ({ w with spill := src }, s)
  else
    let compressed := checkCompressed hooks src s
    if compressed.1 || badHeader src || badExtendedLength src then
      (w, hooks.forceClose compressed.2)
    else
      match _h : consumeMessage hooks (announcedLength src) (headerLengthOf (payloadLength src))
        src w compressed.2 with
      | .stop w s => (w, s)
      | .next rest w s => parseNext rest w s
  termination_by src.length
  decreasing_by
    have hheader := headerLengthOf_cases (payloadLength src)
    rw [consumeMessage_next hooks _h, List.length_drop]
    omega

/-- Return to the caller, or go on at `parseNext`. -/
def Consumed.resume : Consumed σ → WebSocketState × σ
  | .stop w s => (w, s)
  | .next rest w s => parseNext hooks rest w s

/-- The loop saves an incomplete header. -/
theorem parseNext_of_incomplete {src : Bytes} {w : WebSocketState} {s : σ}
    (h : src.length < shortMessageHeader ∨ src.length < headerLengthOf (payloadLength src)) :
    parseNext hooks src w s = if src = [] then (w, s) else ({ w with spill := src }, s) := by
  rw [parseNext, if_pos h]

/-- One iteration of the loop on a complete header. -/
theorem parseNext_of_complete {src : Bytes} {w : WebSocketState} {s : σ}
    (h : ¬(src.length < shortMessageHeader ∨ src.length < headerLengthOf (payloadLength src))) :
    parseNext hooks src w s =
      if (checkCompressed hooks src s).1 || badHeader src || badExtendedLength src then
        (w, hooks.forceClose (checkCompressed hooks src s).2)
      else
        (consumeMessage hooks (announcedLength src) (headerLengthOf (payloadLength src)) src w
          (checkCompressed hooks src s).2).resume hooks := by
  rw [parseNext, if_neg h]
  simp only
  split
  · rfl
  · split <;> rename_i hconsumed <;> simp only [hconsumed, Consumed.resume]

/-- `WebSocketProtocol::consume`: the saved header bytes come before the chunk. -/
def consume (src : Bytes) (w : WebSocketState) (s : σ) : WebSocketState × σ :=
  if w.wantsHead then parseNext hooks (w.spill ++ src) w s
  else (consumeContinuation hooks (w.spill ++ src) w s).resume hooks

/-- A relation kept by the four hooks. -/
structure WebSocketProtocolHooks.Keep (R : σ → σ → Prop) : Prop where
  refusePayloadLength : ∀ length s, R s (hooks.refusePayloadLength length s).2
  setCompressed : ∀ s, R s (hooks.setCompressed s).2
  forceClose : ∀ s, R s (hooks.forceClose s)
  handleFragment : ∀ data remainingBytes opCode fin s,
    R s (hooks.handleFragment data remainingBytes opCode fin s).2

/-- The session reached when a frame has been consumed. -/
def Consumed.session : Consumed σ → σ
  | .stop _ s => s
  | .next _ _ s => s

variable {hooks} {R : σ → σ → Prop}

private theorem refuseFrame_keeps (h : hooks.Keep R) (hrefl : ∀ s, R s s) (opCode : OpCode)
    (payLength : ℕ) (s : σ) : R s (refuseFrame hooks opCode payLength s).2 := by
  unfold refuseFrame
  split
  · exact h.refusePayloadLength payLength s
  · exact hrefl s

private theorem checkCompressed_keeps (h : hooks.Keep R) (hrefl : ∀ s, R s s) (src : Bytes) (s : σ) :
    R s (checkCompressed hooks src s).2 := by
  unfold checkCompressed
  split_ifs
  · exact hrefl s
  · exact h.setCompressed s
  · exact hrefl s

private theorem consumeMessage_keeps (h : hooks.Keep R) (hrefl : ∀ s, R s s)
    (htrans : ∀ {s s' s''}, R s s' → R s' s'' → R s s'') (payLength messageHeader : ℕ) (src : Bytes)
    (w : WebSocketState) (s : σ) :
    R s (consumeMessage hooks payLength messageHeader src w s).session := by
  have hrefuse := fun opCode => refuseFrame_keeps h hrefl opCode payLength s
  unfold consumeMessage
  simp only
  split
  · exact h.forceClose s
  · split_ifs
    · exact htrans (hrefuse _) (h.forceClose _)
    · apply htrans (hrefuse _)
      unfold consumeWhole
      simp only
      split <;> exact h.handleFragment ..
    · exact htrans (hrefuse _) (h.handleFragment ..)

private theorem consumeContinuation_keeps (h : hooks.Keep R) (src : Bytes) (w : WebSocketState)
    (s : σ) : R s (consumeContinuation hooks src w s).session := by
  unfold consumeContinuation
  simp only
  split_ifs <;> exact h.handleFragment ..

theorem parseNext_keeps (h : hooks.Keep R) (hrefl : ∀ s, R s s)
    (htrans : ∀ {s s' s''}, R s s' → R s' s'' → R s s'') (n : ℕ) :
    ∀ (src : Bytes) (w : WebSocketState) (s : σ), src.length = n →
      R s (parseNext hooks src w s).2 := by
  induction n using Nat.strong_induction_on with
  | _ n ih =>
    intro src w s hlength
    by_cases hshort : src.length < shortMessageHeader ∨
        src.length < headerLengthOf (payloadLength src)
    · rw [parseNext_of_incomplete hooks hshort]
      split_ifs <;> exact hrefl s
    · rw [parseNext_of_complete hooks hshort]
      have hcompressed := checkCompressed_keeps h hrefl src s
      split_ifs
      · exact htrans hcompressed (h.forceClose _)
      · apply htrans hcompressed
        have hconsumed := consumeMessage_keeps h hrefl htrans (announcedLength src)
          (headerLengthOf (payloadLength src)) src w (checkCompressed hooks src s).2
        cases hresult : consumeMessage hooks (announcedLength src)
            (headerLengthOf (payloadLength src)) src w (checkCompressed hooks src s).2 with
        | stop w' s' =>
          rw [hresult] at hconsumed
          exact hconsumed
        | next rest w' s' =>
          rw [hresult] at hconsumed
          have hrest := consumeMessage_next hooks hresult
          have hheader := headerLengthOf_cases (payloadLength src)
          apply htrans hconsumed
          apply ih rest.length _ rest w' s' rfl
          rw [hrest, List.length_drop]
          omega

/-- The parser changes its session through the hooks only. -/
theorem consume_keeps (h : hooks.Keep R) (hrefl : ∀ s, R s s)
    (htrans : ∀ {s s' s''}, R s s' → R s' s'' → R s s'') (src : Bytes) (w : WebSocketState) (s : σ) :
    R s (consume hooks src w s).2 := by
  unfold consume
  split_ifs
  · exact parseNext_keeps h hrefl htrans _ _ w s rfl
  · have hconsumed := consumeContinuation_keeps h (w.spill ++ src) w s
    cases hresult : consumeContinuation hooks (w.spill ++ src) w s with
    | stop w' s' =>
      rw [hresult] at hconsumed
      exact hconsumed
    | next rest w' s' =>
      rw [hresult] at hconsumed
      exact htrans hconsumed (parseNext_keeps h hrefl htrans _ rest w' s' rfl)

end Eiows
