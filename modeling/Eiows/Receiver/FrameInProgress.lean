import Eiows.Receiver.Representation

/-!
# The frame being read

Of the header of a frame that is partly read the parser keeps the stack of opcodes and
a rotated mask. This file follows the header that was on the wire, and the payload
bytes read since, through every call, and compares them with what the parser kept.
-/

namespace Eiows

section Parser

variable {σ : Type} (hooks : WebSocketProtocolHooks σ)

/-- What the wire says of the last frame begun: its opcode and key, and how many bytes
of its payload have been read. -/
structure BegunFrame where
  opCode : OpCode
  key : Mask
  read : ℕ
  deriving DecidableEq

/-- The frame that begins at the front of `src`, where its payload is incomplete. -/
def BegunFrame.at (src : Bytes) : BegunFrame where
  opCode := OpCode.ofNibble (getOpCode src)
  key := readMask src (headerLengthOf (payloadLength src) - 4)
  read := src.length - headerLengthOf (payloadLength src)

/-- The last frame that the loop at `parseNext` begins, or else `seen`. -/
def parseNextFrame (src : Bytes) (w : WebSocketState) (s : σ) (seen : BegunFrame) : BegunFrame :=
  if src.length < shortMessageHeader ∨ src.length < headerLengthOf (payloadLength src) then seen
  else
    match _h : consumeMessage hooks (announcedLength src) (headerLengthOf (payloadLength src)) src w
      (checkCompressed hooks src s).2 with
    | .stop _ _ => .at src
    | .next rest w s => parseNextFrame rest w s (.at src)
  termination_by src.length
  decreasing_by
    have hheader := headerLengthOf_cases (payloadLength src)
    rw [consumeMessage_next hooks _h, List.length_drop]
    omega

/-- The last frame that a call begins, or the one it goes on with. -/
def consumeFrame (src : Bytes) (w : WebSocketState) (s : σ) (seen : BegunFrame) : BegunFrame :=
  if w.wantsHead then parseNextFrame hooks (w.spill ++ src) w s seen
  else
    match consumeContinuation hooks (w.spill ++ src) w s with
    | .stop _ _ => { seen with read := seen.read + (w.spill ++ src).length }
    | .next rest w s => parseNextFrame hooks rest w s seen

/-- What the parser kept of the frame being read: it is a control frame exactly when the
top of the stack says so, and the mask is turned to the next payload byte. -/
def WebSocketState.ReadsFrame (w : WebSocketState) (seen : BegunFrame) : Prop :=
  w.wantsHead = false →
    (3 ≤ seen.opCode.value ↔ 3 ≤ w.currentOpCode.value) ∧
      ∀ i, w.mask.byte i = seen.key.byte (seen.read + i)

variable {hooks} {w w' : WebSocketState} {s s' : σ} {src rest : Bytes}

theorem enterFrame_error_wantsHead {opCode : OpCode} {fin : Bool}
    (h : enterFrame opCode fin w = .error w') : w'.wantsHead = w.wantsHead := by
  unfold enterFrame at h
  simp only at h
  repeat' split at h
  all_goals
    cases h
    try rfl

/-- A frame that is entered puts its opcode, or that of its message, on the stack, and
its mask is turned past the bytes that came with the header. -/
theorem consumeMessage_readsFrame (hwants : w.wantsHead = true) (hw : w.Idle)
    (hvalid : badHeader src = false)
    (h : consumeMessage hooks (announcedLength src) (headerLengthOf (payloadLength src)) src w s =
      .stop w' s') : w'.ReadsFrame (.at src) := by
  obtain ⟨-, hcontrol⟩ := valid_header hvalid
  intro hreads
  unfold consumeMessage at h
  simp only at h
  cases hentered : enterFrame (OpCode.ofNibble (getOpCode src)) (isFin src) w with
  | error w₁ =>
    rw [hentered] at h
    cases h
    have hsame := (enterFrame_error_wantsHead hentered).trans hwants
    exact absurd (hsame.symm.trans hreads) (by decide)
  | ok w₁ =>
    obtain ⟨-, -, hsame, hcurrent⟩ := enterFrame_idle hw (fun h => (hcontrol h).1) hentered
    have hwants₁ : w₁.wantsHead = true := hsame.trans hwants
    rw [hentered] at h
    simp only at h
    split_ifs at h with hrefused hwhole
    · cases h
      exact absurd (hwants₁.symm.trans hreads) (by decide)
    · unfold consumeWhole at h
      simp only at h
      split_ifs at h
      cases h
      exact absurd (hwants₁.symm.trans hreads) (by decide)
    · cases h
      have hvalue : 3 ≤ (OpCode.ofNibble (getOpCode src)).value ↔ 3 ≤ w₁.currentOpCode.value := by
        omega
      exact ⟨hvalue, fun i => rotateMask_byte _ _ i⟩

/-- The loop keeps the kind and the mask of the frame that it stops in, unless it ends the
session. -/
theorem parseNext_readsFrame {Between : σ → Prop} {Within : OpCode → ℕ → σ → Prop} {Closed : σ → Prop}
    (hooked : hooks.Maintain Between Within Closed) (n : ℕ) :
    ∀ {src : Bytes} {w : WebSocketState} {s : σ} (seen : BegunFrame), src.length = n →
      w.wantsHead = true → w.Idle → Between s →
        Closed (parseNext hooks src w s).2 ∨
          (parseNext hooks src w s).1.ReadsFrame (parseNextFrame hooks src w s seen) := by
  induction n using Nat.strong_induction_on with
  | _ n ih =>
    intro src w s seen hn hwants hw hs
    by_cases hshort : src.length < shortMessageHeader ∨
        src.length < headerLengthOf (payloadLength src)
    · rw [parseNext_of_incomplete hooks hshort]
      refine .inr fun hreads => absurd hwants ?_
      split_ifs at hreads <;> (rw [hreads]; decide)
    · rw [parseNext_of_complete hooks hshort, parseNextFrame, if_neg hshort]
      have hchecked := checkCompressed_between hooked hs src
      split_ifs with hbad
      · exact .inl (hooked.forceClose _ hchecked)
      · have hvalid : badHeader src = false := by
          simp only [Bool.or_eq_true, not_or, Bool.not_eq_true] at hbad
          exact hbad.1.2
        have hconsumed := consumeMessage_represents hooked hwants hw hchecked (by omega) hvalid
        split
        · rename_i w' s' hresult
          rw [hresult]
          exact .inr (consumeMessage_readsFrame hwants hw hvalid hresult)
        · rename_i rest w' s' hresult
          rw [hresult] at hconsumed ⊢
          have hrest := consumeMessage_next hooks hresult
          have hheader := headerLengthOf_cases (payloadLength src)
          cases hconsumed with
          | next hwants' hw' hspill' hs' =>
            refine ih rest.length ?_ _ rfl hwants' hw' hs'
            rw [hrest, List.length_drop]
            omega

/-- A frame that goes on is the same frame, with more of its payload read. -/
theorem consumeContinuation_readsFrame {Between : σ → Prop} {Within : OpCode → ℕ → σ → Prop}
    {Closed : σ → Prop} (hooked : hooks.Maintain Between Within Closed) (hw : w.Reading)
    (hs : Within w.currentOpCode w.remainingBytes s) (hwants : w.wantsHead = false)
    {seen : BegunFrame} (hseen : w.ReadsFrame seen)
    (h : consumeContinuation hooks src w s = .stop w' s') :
    Closed s' ∨ w'.ReadsFrame { seen with read := seen.read + src.length } := by
  obtain ⟨hopCode, hmask⟩ := hseen hwants
  unfold consumeContinuation at h
  simp only at h
  by_cases hwhole : w.remainingBytes ≤ src.length
  · rw [if_pos hwhole] at h
    have hdata : (unmaskFinal (src.take w.remainingBytes) w.mask).length + 0 = w.remainingBytes := by
      rw [unmaskFinal_length, List.length_take]
      omega
    split_ifs at h with hstop
    cases h
    exact .inl (hooked.stop _ _ _ _ _ (hdata.symm ▸ hs) hw.fin hstop)
  · rw [if_neg hwhole] at h
    have hdata : (unmaskInplace src src.length w.mask).length + (w.remainingBytes - src.length) =
        w.remainingBytes := by
      rw [unmaskInplace_length, keystream_length]
      omega
    split_ifs at h with hstop hrotated
    · cases h
      exact .inl (hooked.stop _ _ _ _ _ (hdata.symm ▸ hs) hw.fin hstop)
    · cases h
      refine .inr fun _ => ⟨hopCode, fun i => ?_⟩
      rw [rotateMask_byte, hmask, Nat.add_assoc]
    · cases h
      refine .inr fun _ => ⟨hopCode, fun i => (hmask i).trans ?_⟩
      apply seen.key.byte_congr
      simp only
      omega

/-- So does a call of the parser. -/
theorem consume_readsFrame {Between : σ → Prop} {Within : OpCode → ℕ → σ → Prop} {Closed : σ → Prop}
    (hooked : hooks.Maintain Between Within Closed) (h : Represents Between Within Closed w s)
    (hopen : ¬Closed s) {seen : BegunFrame} (hseen : w.ReadsFrame seen) (src : Bytes) :
    Closed (consume hooks src w s).2 ∨
      (consume hooks src w s).1.ReadsFrame (consumeFrame hooks src w s seen) := by
  unfold consume consumeFrame
  cases h with
  | closed hclosed => exact absurd hclosed hopen
  | between hwants hw hspill hs =>
    rw [if_pos hwants, if_pos hwants]
    exact parseNext_readsFrame hooked _ seen rfl hwants hw hs
  | inside hwants hw hspill hremaining hs =>
    have hnot : ¬w.wantsHead = true := by rw [hwants]; decide
    rw [if_neg hnot, if_neg hnot]
    have hconsumed := consumeContinuation_represents hooked (w.spill ++ src) hwants hw hspill
      hremaining hs
    cases hresult : consumeContinuation hooks (w.spill ++ src) w s with
    | stop w' s' => exact consumeContinuation_readsFrame hooked hw hs hwants hseen hresult
    | next rest w' s' =>
      rw [hresult] at hconsumed
      cases hconsumed with
      | next hwants' hw' hspill' hs' => exact parseNext_readsFrame hooked _ seen rfl hwants' hw' hs'

end Parser

variable {Z : Zlib}

namespace StreamWebSocket

/-- The last frame that a call of `consume` begins, or the one it goes on with. -/
def frameBegun (data : Bytes) (ws : StreamWebSocket Z) (seen : BegunFrame) : BegunFrame :=
  let ws := ws.prepare
  if ws.session.closing ∨ data = [] ∨ unsignedMax < data.length then seen
  else if ws.parser.spill ≠ [] then
    let copied := takenForHeader ws.parser.spill data
    let first := ws.feedParser (data.take copied)
    let seen := consumeFrame protocolHooks (data.take copied) ws.parser ws.session seen
    if !first.session.closing ∧ copied < data.length then
      consumeFrame protocolHooks (data.drop copied) first.parser first.session seen
    else seen
  else consumeFrame protocolHooks data ws.parser ws.session seen

/-- The last frame that a sequence of calls begins, or else `seen`. -/
def frameBegunAll (ws : StreamWebSocket Z) (seen : BegunFrame) : List (SessionCall Z) → BegunFrame
  | [] => seen
  | .consume data :: rest => (ws.consume data).frameBegunAll (ws.frameBegun data seen) rest
  | call :: rest => (ws.invoke call).2.frameBegunAll seen rest

variable {ws : StreamWebSocket Z} {seen : BegunFrame}

theorem feedParser_readsFrame (h : ws.Representation) (hopen : ws.session.closing = false)
    (hseen : ws.parser.ReadsFrame seen) (data : Bytes) :
    (ws.feedParser data).session.closing = true ∨ (ws.feedParser data).parser.ReadsFrame
      (consumeFrame protocolHooks data ws.parser ws.session seen) :=
  Eiows.consume_readsFrame protocolHooks_maintain h (by simp [hopen]) hseen data

theorem consume_frameBegun (h : ws.Representation) (hseen : ws.parser.ReadsFrame seen)
    (data : Bytes) :
    (ws.consume data).session.closing = true ∨
      (ws.consume data).parser.ReadsFrame (ws.frameBegun data seen) := by
  have hprepared := h.prepare
  unfold consume frameBegun
  simp only
  by_cases hidle : ws.prepare.session.closing = true ∨ data = []
  · rw [if_pos hidle, if_pos (hidle.imp id .inl)]
    exact .inr hseen
  · obtain ⟨hnotClosing, hdata⟩ := not_or.mp hidle
    have hopen : ws.prepare.session.closing = false := by simpa using hnotClosing
    rw [if_neg hidle]
    by_cases hlong : unsignedMax < data.length
    · rw [if_pos hlong]
      exact .inl (Session.failWith_closing 1009)
    · have hsome : ¬(ws.prepare.session.closing = true ∨ data = [] ∨ unsignedMax < data.length) :=
        fun h => h.elim hnotClosing fun h => h.elim hdata hlong
      rw [if_neg hlong, if_neg hsome]
      have hfeed := @feedParser_readsFrame _ _ seen hprepared hopen hseen
      by_cases hspill : ws.prepare.parser.spill ≠ []
      · rw [if_pos hspill, if_pos hspill]
        have hcopied : min data.length (spilledHeaderLength ws.prepare.parser.spill data -
          ws.prepare.parser.spill.length) = takenForHeader ws.prepare.parser.spill data := rfl
        rw [hcopied]
        have hfirst := hfeed (data.take (takenForHeader ws.prepare.parser.spill data))
        split_ifs with hrest
        · have hgoes : (ws.prepare.feedParser (data.take (takenForHeader ws.prepare.parser.spill
              data))).session.closing = false := by simpa using hrest.1
          rcases hfirst with hclosed | hreads
          · exact absurd (hclosed.symm.trans hgoes) (by decide)
          · exact feedParser_readsFrame (feedParser_representation hprepared hopen _) hgoes hreads _
        · exact hfirst
      · rw [if_neg hspill, if_neg hspill]
        exact hfeed data

/-- Calls that do not read leave the parser alone. -/
theorem invoke_sameParser {call : SessionCall Z} (h : ∀ data, call ≠ .consume data) :
    (ws.invoke call).2.parser = ws.parser := by
  cases call with
  | consume data => exact absurd rfl (h data)
  | createFrame data opCode compress =>
    simp only [invoke, createFrame]
    split_ifs
    · rfl
    · rfl
    · split <;> rfl
    · rfl
  | createCloseFrame code message =>
    simp only [invoke, createCloseFrame]
    split_ifs <;> rfl
  | contextUsed context => rfl

/-- An ended session stays ended. -/
theorem invoke_closing (hclosing : ws.session.closing = true) (call : SessionCall Z) :
    (ws.invoke call).2.session.closing = true := by
  cases call with
  | consume data =>
    have hidle : ws.prepare.session.closing = true ∨ data = [] := .inl hclosing
    simp only [invoke, consume]
    rw [if_pos hidle]
    exact hclosing
  | createFrame data opCode compress =>
    simp only [invoke, createFrame]
    rw [if_pos (.inl hclosing)]
    exact hclosing
  | createCloseFrame code message =>
    simp only [invoke, createCloseFrame]
    rw [if_pos (.inl hclosing)]
    exact hclosing
  | contextUsed context => exact hclosing

theorem invokeAll_closing (hclosing : ws.session.closing = true) (calls : List (SessionCall Z)) :
    (ws.invokeAll calls).2.session.closing = true := by
  induction calls generalizing ws with
  | nil => exact hclosing
  | cons call rest ih => exact ih (invoke_closing hclosing call)

/-- In every open session that calls lead to, the parser keeps the kind and the turned
mask of the frame that was begun last. -/
theorem invokeAll_frameBegun (h : ws.Representation) (hseen : ws.parser.ReadsFrame seen)
    (calls : List (SessionCall Z)) :
    (ws.invokeAll calls).2.session.closing = true ∨
      (ws.invokeAll calls).2.parser.ReadsFrame (ws.frameBegunAll seen calls) := by
  induction calls generalizing ws seen with
  | nil => exact .inr hseen
  | cons call rest ih =>
    have hnext := invoke_representation h call
    have hother : (∀ data, call ≠ .consume data) →
        (ws.invokeAll (call :: rest)).2.session.closing = true ∨
          (ws.invokeAll (call :: rest)).2.parser.ReadsFrame
            ((ws.invoke call).2.frameBegunAll seen rest) := by
      intro hcall
      apply ih hnext
      rw [WebSocketState.ReadsFrame, invoke_sameParser hcall]
      exact hseen
    cases call with
    | consume data =>
      rcases consume_frameBegun h hseen data with hclosed | hreads
      · exact .inl (@invokeAll_closing _ (ws.consume data) hclosed rest)
      · exact ih hnext hreads
    | createFrame data opCode compress => exact hother (fun _ h => by cases h)
    | createCloseFrame code message => exact hother (fun _ h => by cases h)
    | contextUsed context => exact hother (fun _ h => by cases h)

end StreamWebSocket

end Eiows
