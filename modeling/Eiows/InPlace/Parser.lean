import Eiows.InPlace.Unmasking
import Eiows.Protocol.Parser

/-!
# The parser on a buffer

The code behind `WebSocketProtocol::consume`, with its pointer into the caller's
buffer, its 32-bit lengths, and the bit-fields of its state. A header that was
saved with an earlier chunk is written in front of the chunk, and payloads are
unmasked where they lie. Each access, each sum and each bit-field is checked.
-/

namespace Eiows

open Memory

namespace InPlace

/-- The pointer `src` into a buffer, and the `length` of what is left there. -/
structure Cursor where
  buffer : Bytes
  src : ℕ
  length : ℕ

/-- The bytes that are left. -/
def Cursor.frame (c : Cursor) : Bytes := slice c.buffer c.src c.length

/-- How `consumeMessage` and `consumeContinuation` end, with the buffer. -/
inductive Consumed (τ : Type) where
  | stop (buffer : Bytes) (w : WebSocketState) (t : τ)
  | next (c : Cursor) (w : WebSocketState) (t : τ)

/-- `state.opCode[state.opStack]`. -/
def currentOpCode (w : WebSocketState) : Checked OpCode := do
  let _ ← indexed 2 w.opStack
  return w.currentOpCode

/-- `if (fin) state.opStack--`, in two bits. -/
def leaveFrame (fin : Bool) (w : WebSocketState) : Checked WebSocketState := do
  if fin then
    let opStack ← bitField 2 (w.opStack - 1)
    return { w with opStack }
  else return w

/-- The bookkeeping of `consumeMessage`, with the checks of
`state.opCode[++state.opStack] = opCode`. -/
def enterFrame (opCode : OpCode) (fin : Bool) (w : WebSocketState) :
    Checked (Except WebSocketState WebSocketState) :=
  match Eiows.enterFrame opCode fin w with
  | .error w => return .error w
  | .ok entered => do
    if opCode ≠ .none then
      let opStack ← bitField 2 (w.opStack + 1)
      let _ ← indexed 2 opStack
    return .ok entered

variable {τ : Type} (variant : UnmaskVariant) (hooks : ℕ → WebSocketProtocolHooks τ)

/-- `consumeMessage` where the whole payload is available. `handleFragment` also
sees where its data lies: `hooks data` are the hooks for a payload at `data`. -/
def consumeWhole (payLength messageHeader : ℕ) (c : Cursor) (w : WebSocketState) (t : τ) :
    Checked (Consumed τ) := do
  let data := c.src + messageHeader - 4
  let length ← unsigned 32 payLength
  -- `unmaskImpreciseCopyMask` copies the mask before it is overwritten.
  let mask := readMask c.frame (messageHeader - 4)
  let buffer ← unmaskImprecise variant data (c.src + messageHeader) length mask c.buffer
  let payload ← load buffer data payLength
  -- `isFin(src)` reads the header again, after the payload has been moved.
  let header ← load buffer c.src 1
  let opCode ← currentOpCode w
  let handled := (hooks data).handleFragment payload 0 opCode (isFin header) t
  if handled.1 then return .stop buffer w handled.2
  let w ← leaveFrame (isFin header) w
  return .next ⟨buffer, c.src + (payLength + messageHeader), c.length - (payLength + messageHeader)⟩
    { w with spill := [] } handled.2

/-- `consumeMessage` where only a part of the payload is available. -/
def consumePart (payLength messageHeader : ℕ) (c : Cursor) (w : WebSocketState) (t : τ) :
    Checked (Consumed τ) := do
  let fin := isFin c.frame
  -- Computed in `uint64_t`, where the difference may wrap, and stored in 32 bits.
  let remainingBytes ← unsigned 32 ((payLength + 2 ^ 64 - c.length + messageHeader) % 2 ^ 64)
  let mask := readMask c.frame (messageHeader - 4)
  let available ← unsignedSub c.length messageHeader
  let buffer ← unmaskImprecise variant c.src (c.src + messageHeader) available mask c.buffer
  let w := { w with
    spill := []
    wantsHead := false
    remainingBytes
    mask := rotateMask (4 - available % 4) mask }
  let payload ← load buffer c.src available
  let opCode ← currentOpCode w
  return .stop buffer w ((hooks c.src).handleFragment payload remainingBytes opCode fin t).2

/-- `consumeMessage`. -/
def consumeMessage (payLength messageHeader : ℕ) (c : Cursor) (w : WebSocketState) (t : τ) :
    Checked (Consumed τ) := do
  let opCode := OpCode.ofNibble (getOpCode c.frame)
  match ← enterFrame opCode (isFin c.frame) w with
  | .error w => return .stop c.buffer w ((hooks c.src).forceClose t)
  | .ok w =>
    let refusal := refuseFrame (hooks c.src) opCode payLength t
    if refusal.1 then return .stop c.buffer w ((hooks c.src).forceClose refusal.2)
    let frameLength ← unsigned 64 (payLength + messageHeader)
    if frameLength ≤ c.length then
      consumeWhole variant hooks payLength messageHeader c w refusal.2
    else consumePart variant hooks payLength messageHeader c w refusal.2

/-- The loop `src[n * 4 + i] ^= mask[i]` behind the last block of four. -/
def unmaskRest (src n count : ℕ) (mask : Mask) (buffer : Bytes) : Checked Bytes :=
  (List.range count).foldlM (fun buffer i => do
    let position ← signed 32 (n * 4 + i)
    xorByte (src + position) (src + position) (mask.byte i) buffer) buffer

/-- `consumeContinuation`. -/
def consumeContinuation (c : Cursor) (w : WebSocketState) (t : τ) : Checked (Consumed τ) := do
  if w.remainingBytes ≤ c.length then
    let n := w.remainingBytes / 4
    -- `n * 4`, in `int`.
    let blocks ← signed 32 (n * 4)
    let buffer ← unmaskInplace variant c.src blocks w.mask c.buffer
    let buffer ← unmaskRest c.src n (w.remainingBytes % 4) w.mask buffer
    let payload ← load buffer c.src w.remainingBytes
    let opCode ← currentOpCode w
    let handled := (hooks c.src).handleFragment payload 0 opCode w.lastFin t
    if handled.1 then return .stop buffer w handled.2
    let w ← leaveFrame w.lastFin w
    return .next ⟨buffer, c.src + w.remainingBytes, c.length - w.remainingBytes⟩
      { w with wantsHead := true } handled.2
  else
    let buffer ← unmaskInplace variant c.src c.length w.mask c.buffer
    let w := { w with remainingBytes := w.remainingBytes - c.length }
    let payload ← load buffer c.src c.length
    let opCode ← currentOpCode w
    let handled := (hooks c.src).handleFragment payload w.remainingBytes opCode w.lastFin t
    if handled.1 then return .stop buffer w handled.2
    else if c.length % 4 ≠ 0 then
      return .stop buffer { w with mask := rotateMask (4 - c.length % 4) w.mask } handled.2
    else return .stop buffer w handled.2

/-- Save an incomplete header: `memcpy` to `spill`, and the four bits of
`spillLength`. -/
def saveSpill (frame : Bytes) (w : WebSocketState) : Checked WebSocketState := do
  if 13 < frame.length then throw .bounds
  let _ ← unsignedField 4 frame.length
  return { w with spill := frame }

theorem consumeWhole_next {payLength messageHeader : ℕ} {c c' : Cursor} {w w' : WebSocketState}
    {t t' : τ} (h : consumeWhole variant hooks payLength messageHeader c w t = .ok (.next c' w' t')) :
    c'.length = c.length - (payLength + messageHeader) := by
  simp only [consumeWhole] at h
  obtain ⟨length, -, h⟩ := bind_eq_ok h
  obtain ⟨buffer, -, h⟩ := bind_eq_ok h
  obtain ⟨payload, -, h⟩ := bind_eq_ok h
  obtain ⟨header, -, h⟩ := bind_eq_ok h
  obtain ⟨opCode, -, h⟩ := bind_eq_ok h
  split at h
  · cases h
  · obtain ⟨w, -, h⟩ := bind_eq_ok h
    cases h
    rfl

theorem consumePart_stop {payLength messageHeader : ℕ} {c : Cursor} {w : WebSocketState} {t : τ}
    {r : Consumed τ} (h : consumePart variant hooks payLength messageHeader c w t = .ok r) :
    ∃ buffer w' t', r = .stop buffer w' t' := by
  simp only [consumePart] at h
  obtain ⟨remainingBytes, -, h⟩ := bind_eq_ok h
  obtain ⟨available, -, h⟩ := bind_eq_ok h
  obtain ⟨buffer, -, h⟩ := bind_eq_ok h
  obtain ⟨payload, -, h⟩ := bind_eq_ok h
  obtain ⟨opCode, -, h⟩ := bind_eq_ok h
  cases h
  exact ⟨_, _, _, rfl⟩

/-- Continuing after a whole frame moves the pointer behind it. -/
theorem consumeMessage_next {payLength messageHeader : ℕ} {c c' : Cursor} {w w' : WebSocketState}
    {t t' : τ} (h : consumeMessage variant hooks payLength messageHeader c w t = .ok (.next c' w' t')) :
    c'.length = c.length - (payLength + messageHeader) ∧ payLength + messageHeader ≤ c.length := by
  simp only [consumeMessage] at h
  obtain ⟨entered, -, h⟩ := bind_eq_ok h
  cases entered with
  | error w => cases h
  | ok w =>
    simp only at h
    split at h
    · cases h
    · obtain ⟨frameLength, hlength, h⟩ := bind_eq_ok h
      unfold unsigned at hlength
      split_ifs at hlength
      cases hlength
      split at h
      · rename_i hle
        exact ⟨consumeWhole_next variant hooks h, hle⟩
      · obtain ⟨_, _, _, hstop⟩ := consumePart_stop variant hooks h
        cases hstop

/-- The loop at `parseNext`. -/
def parseNext (c : Cursor) (w : WebSocketState) (t : τ) : Checked (Bytes × WebSocketState × τ) :=
  -- The bytes that are left lie inside the buffer.
  match load c.buffer c.src c.length with
  | .error fault => .error fault
  | .ok frame =>
    if frame.length < shortMessageHeader ∨ frame.length < headerLengthOf (payloadLength frame) then
      if frame = [] then .ok (c.buffer, w, t)
      else (saveSpill frame w).map fun w => (c.buffer, w, t)
    else
      let compressed := checkCompressed (hooks c.src) frame t
      if compressed.1 || badHeader frame || badExtendedLength frame then
        .ok (c.buffer, w, (hooks c.src).forceClose compressed.2)
      else
        match _h : consumeMessage variant hooks (announcedLength frame)
          (headerLengthOf (payloadLength frame)) c w compressed.2 with
        | .error fault => .error fault
        | .ok (.stop buffer w t) => .ok (buffer, w, t)
        | .ok (.next rest w t) => parseNext rest w t
  termination_by c.length
  decreasing_by
    obtain ⟨hlength, hle⟩ := consumeMessage_next variant hooks _h
    have hheader := headerLengthOf_cases (payloadLength frame)
    omega

/-- `WebSocketProtocol::consume(src, length, ...)`, with `src` as an offset into the
buffer. The saved header bytes are written before it. -/
def consume (c : Cursor) (w : WebSocketState) (t : τ) : Checked (Bytes × WebSocketState × τ) := do
  let c ← if w.spill = [] then pure c else do
    if c.src < w.spill.length then throw .bounds
    let src := c.src - w.spill.length
    let length ← unsigned 32 (c.length + w.spill.length)
    let buffer ← store c.buffer src w.spill
    pure ⟨buffer, src, length⟩
  if w.wantsHead then parseNext variant hooks c w t
  else
    match ← consumeContinuation variant hooks c w t with
    | .stop buffer w t => return (buffer, w, t)
    | .next rest w t => parseNext variant hooks rest w t

end InPlace

end Eiows
