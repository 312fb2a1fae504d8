import Eiows.InPlace.Parser
import Eiows.Receiver.Representation

/-!
# The parser on a buffer refines the parser

On a buffer the parser reads the frames that it reads from a list of bytes, and
hands the same payloads to its session, as long as no length leaves 32 bits. The
session may keep pointers into the part of the buffer that lies behind the parser:
nothing writes there any more.
-/

namespace Eiows

open Memory

variable {σ τ : Type}

/-- The hooks, with a record of the lengths of the payloads that they are given. -/
def recordParts (hooks : WebSocketProtocolHooks σ) : WebSocketProtocolHooks (σ × List ℕ) where
  refusePayloadLength length s :=
    ((hooks.refusePayloadLength length s.1).1, (hooks.refusePayloadLength length s.1).2, s.2)
  setCompressed s := ((hooks.setCompressed s.1).1, (hooks.setCompressed s.1).2, s.2)
  forceClose s := (hooks.forceClose s.1, s.2)
  handleFragment data remainingBytes opCode fin s :=
    ((hooks.handleFragment data remainingBytes opCode fin s.1).1,
      (hooks.handleFragment data remainingBytes opCode fin s.1).2, s.2 ++ [data.length])

/-- The record grows. -/
theorem recordParts_keep (hooks : WebSocketProtocolHooks σ) :
    (recordParts hooks).Keep fun s s' => s.2 <+: s'.2 := by
  constructor
  · exact fun _ _ => List.prefix_rfl
  · exact fun _ => List.prefix_rfl
  · exact fun _ => List.prefix_rfl
  · exact fun _ _ _ _ _ => List.prefix_append _ _

namespace InPlace

/-- The hooks on a buffer do what the hooks on lists do. The relation may speak of
the bytes before the parser, to which more are added as it goes on. -/
structure Simulates (hooks : ℕ → WebSocketProtocolHooks τ) (spec : WebSocketProtocolHooks σ)
    (R : Bytes → τ → σ × List ℕ → Prop) : Prop where
  extend : ∀ {before : Bytes} {t : τ} {s : σ × List ℕ} (more : Bytes), R before t s →
    R (before ++ more) t s
  refusePayloadLength : ∀ {before : Bytes} {t : τ} {s : σ × List ℕ} (data length : ℕ), R before t s →
    ((hooks data).refusePayloadLength length t).1 = ((recordParts spec).refusePayloadLength length s).1 ∧
      R before ((hooks data).refusePayloadLength length t).2
        ((recordParts spec).refusePayloadLength length s).2
  setCompressed : ∀ {before : Bytes} {t : τ} {s : σ × List ℕ} (data : ℕ), R before t s →
    ((hooks data).setCompressed t).1 = ((recordParts spec).setCompressed s).1 ∧
      R before ((hooks data).setCompressed t).2 ((recordParts spec).setCompressed s).2
  forceClose : ∀ {before : Bytes} {t : τ} {s : σ × List ℕ} (data : ℕ), R before t s →
    R before ((hooks data).forceClose t) ((recordParts spec).forceClose s)
  handleFragment : ∀ {before : Bytes} {t : τ} {s : σ × List ℕ} (payload : Bytes)
    (remainingBytes : ℕ) (opCode : OpCode) (fin : Bool), R before t s →
      ((hooks before.length).handleFragment payload remainingBytes opCode fin t).1 =
          ((recordParts spec).handleFragment payload remainingBytes opCode fin s).1 ∧
        R (before ++ payload)
          ((hooks before.length).handleFragment payload remainingBytes opCode fin t).2
          ((recordParts spec).handleFragment payload remainingBytes opCode fin s).2

/-- The pointer lies inside the buffer, and the session relies on what is before it. -/
structure Ready (limit : ℕ) (R : Bytes → τ → σ × List ℕ → Prop) (c : Cursor) (t : τ)
    (s : σ × List ℕ) : Prop where
  inside : c.src + c.length ≤ c.buffer.length
  length : c.length < 2 ^ 32
  related : R (c.buffer.take c.src) t s
  parts : ∀ n ∈ s.2, n < limit

/-- A frame on the buffer is read as from a list, or a payload was too long. -/
inductive Refines (limit size : ℕ) (R : Bytes → τ → σ × List ℕ → Prop) :
    Checked (Consumed τ) → Eiows.Consumed (σ × List ℕ) → Prop
  | stop {buffer : Bytes} {w : WebSocketState} {t : τ} {s : σ × List ℕ} (length : buffer.length = size)
      (parts : ∀ n ∈ s.2, n < limit) (related : R buffer t s) :
      Refines limit size R (.ok (.stop buffer w t)) (.stop w s)
  | next {c : Cursor} {src : Bytes} {w : WebSocketState} {t : τ} {s : σ × List ℕ}
      (length : c.buffer.length = size) (frame : c.frame = src) (ready : Ready limit R c t s) :
      Refines limit size R (.ok (.next c w t)) (.next src w s)
  | overflow {r : Eiows.Consumed (σ × List ℕ)} (n : ℕ) (part : n ∈ r.session.2) (long : limit ≤ n) :
      Refines limit size R (.error .overflow) r

variable {hooks : ℕ → WebSocketProtocolHooks τ} {spec : WebSocketProtocolHooks σ}
  {R : Bytes → τ → σ × List ℕ → Prop} {variant : UnmaskVariant} {limit : ℕ} {c : Cursor}
  {w : WebSocketState} {t : τ} {s : σ × List ℕ}

/-- The session relies on a longer part of the buffer. -/
theorem Simulates.advance (sim : Simulates hooks spec R) {buffer : Bytes} {i j : ℕ} (hij : i ≤ j)
    (h : R (buffer.take i) t s) : R (buffer.take j) t s := by
  have hsplit : buffer.take j = buffer.take i ++ (buffer.drop i).take (j - i) := by
    rw [← List.take_add, Nat.add_sub_cancel' hij]
  rw [hsplit]
  exact sim.extend _ h

theorem Simulates.whole (sim : Simulates hooks spec R) {buffer : Bytes} {i : ℕ}
    (h : R (buffer.take i) t s) : R buffer t s := by
  have hsplit := sim.extend (buffer.drop i) h
  rwa [List.take_append_drop] at hsplit

theorem Ready.frame_length (h : Ready limit R c t s) : c.frame.length = c.length :=
  slice_length h.inside

theorem unmaskLimit_le (variant : UnmaskVariant) :
    2 ^ 31 ≤ unmaskLimit variant ∧ unmaskLimit variant ≤ 2 ^ 32 := by
  cases variant <;> simp [unmaskLimit]

theorem currentOpCode_eq (h : w.Reading) : currentOpCode w = .ok w.currentOpCode := by
  have hstack := h.stack_cases
  rw [currentOpCode, indexed_of_lt (by omega) (by omega)]
  rfl

theorem leaveFrame_eq (h : w.Reading) (fin : Bool) :
    leaveFrame fin w = .ok { w with opStack := if fin then w.opStack - 1 else w.opStack } := by
  have hstack := h.stack_cases
  have hfield : bitField 2 (w.opStack - 1) = .ok (w.opStack - 1) := by
    unfold bitField
    rw [if_pos]
    norm_num
    omega
  cases fin with
  | true => simp [leaveFrame, hfield, bind, Except.bind, pure, Except.pure]
  | false => simp [leaveFrame, pure, Except.pure]

/-- The FIN bit is in the first byte. -/
theorem isFin_slice (buffer : Bytes) (src : ℕ) {length : ℕ} (h : 0 < length) :
    isFin (slice buffer src 1) = isFin (slice buffer src length) := by
  have htake : slice buffer src 1 = (slice buffer src length).take 1 := (slice_take _ _ h).symm
  have hfirst : ∀ data : Bytes, byteAt (data.take 1) 0 = byteAt data 0 := by
    intro data
    cases data <;> rfl
  rw [htake]
  simp only [isFin, hfirst]

/-- The hooks see the payload that was unmasked to `data`. -/
theorem Simulates.handled (sim : Simulates hooks spec R) {data src count : ℕ} (mask : Mask)
    (hsrc : c.src ≤ data) (hdata : data ≤ src) (hinside : src + count ≤ c.buffer.length)
    (hrelated : R (c.buffer.take c.src) t s) (remainingBytes : ℕ) (opCode : OpCode) (fin : Bool) :
    let payload := keystream mask 0 (slice c.buffer src count)
    let buffer := unmasked data src count mask 0 c.buffer
    ((hooks data).handleFragment payload remainingBytes opCode fin t).1 =
        ((recordParts spec).handleFragment payload remainingBytes opCode fin s).1 ∧
      R (buffer.take (data + count)) ((hooks data).handleFragment payload remainingBytes opCode fin t).2
        ((recordParts spec).handleFragment payload remainingBytes opCode fin s).2 := by
  intro payload buffer
  have hpayload : payload.length = count := by
    rw [keystream_length, slice_length hinside]
  have hbefore : (c.buffer.take data).length = data := by
    rw [List.length_take]
    omega
  have hwritten : buffer.take (data + count) = c.buffer.take data ++ payload := by
    have htake := @take_overwrite _ c.buffer payload data (by omega)
    rwa [hpayload] at htake
  have hhandled := sim.handleFragment payload remainingBytes opCode fin (sim.advance hsrc hrelated)
  rw [hbefore] at hhandled
  rw [hwritten]
  exact hhandled

/-- What was unmasked can be read. -/
theorem load_unmasked {data src count : ℕ} {mask : Mask} {buffer : Bytes} (hdata : data ≤ src)
    (hinside : src + count ≤ buffer.length) :
    load (unmasked data src count mask 0 buffer) data count =
      .ok (keystream mask 0 (slice buffer src count)) := by
  have hlength : (keystream mask 0 (slice buffer src count)).length = count := by
    rw [keystream_length, slice_length hinside]
  have hself := @slice_overwrite_self _ buffer (keystream mask 0 (slice buffer src count)) data
    (by omega)
  rw [load_of_le (by rw [unmasked_length hdata hinside]; omega), unmasked]
  rw [hlength] at hself
  rw [hself]

/-- The payload is what the parser on lists hands on. -/
theorem unmaskImprecise_frame {payLength messageHeader : ℕ} (mask : Mask)
    (hlength : payLength + messageHeader ≤ c.length) :
    Eiows.unmaskImprecise mask ((c.frame.drop messageHeader).take payLength) =
      keystream mask 0 (slice c.buffer (c.src + messageHeader) payLength) := by
  rw [unmaskImprecise_eq_keystream, Cursor.frame, slice_drop, slice_take _ _ (by omega)]

/-- One more part of an admissible length. -/
theorem parts_append {parts : List ℕ} {n : ℕ} (hparts : ∀ n ∈ parts, n < limit) (hn : n < limit) :
    ∀ m ∈ parts ++ [n], m < limit := by
  intro m hm
  rcases List.mem_append.mp hm with hold | hnew
  · exact hparts m hold
  · rw [List.mem_singleton.mp hnew]
    exact hn

/-- A whole frame. -/
theorem consumeWhole_refines (sim : Simulates hooks spec R) {payLength messageHeader : ℕ}
    (hready : Ready (unmaskLimit variant) R c t s) (hheader : 6 ≤ messageHeader)
    (hlength : payLength + messageHeader ≤ c.length) (hw : w.Reading) :
    Refines (unmaskLimit variant) c.buffer.length R
      (consumeWhole variant hooks payLength messageHeader c w t)
      (Eiows.consumeWhole (recordParts spec) payLength messageHeader c.frame w s) := by
  have hinside := hready.inside
  have hsmall := hready.length
  have hpay : payLength < 2 ^ 32 := by omega
  have hread : c.src + messageHeader + payLength ≤ c.buffer.length := by omega
  simp only [consumeWhole, Eiows.consumeWhole, unsigned_of_lt hpay,
    unmaskImprecise_frame _ hlength]
  generalize hmask : readMask c.frame (messageHeader - 4) = mask
  generalize hdst : c.src + messageHeader - 4 = data
  have hdata : data ≤ c.src + messageHeader := by omega
  have hunmask := unmaskImprecise_eq variant mask hdata hread hpay
  have hcount : (keystream mask 0 (slice c.buffer (c.src + messageHeader) payLength)).length =
      payLength := by
    rw [keystream_length, slice_length hread]
  obtain ⟨hsame, hrelated⟩ := sim.handled (t := t) (s := s) mask
    (by omega : c.src ≤ data) hdata hread hready.related 0 w.currentOpCode (isFin c.frame)
  by_cases hlimit : payLength < unmaskLimit variant
  · rw [if_pos hlimit] at hunmask
    have hsize := @unmasked_length _ _ _ mask 0 _ hdata hread
    -- The payload is moved to a place behind the first two bytes of the header.
    have hfirst : load (unmasked data (c.src + messageHeader) payLength mask 0 c.buffer) c.src 1 =
        .ok (slice c.buffer c.src 1) := by
      rw [load_of_le (by omega)]
      congr 1
      apply slice_overwrite_before <;> omega
    have hfin : isFin (slice c.buffer c.src 1) = isFin c.frame := isFin_slice _ _ (by omega)
    have hparts := parts_append hready.parts (hcount.trans_lt hlimit)
    simp only [hunmask, load_unmasked hdata hread, hfirst, hfin, currentOpCode_eq hw, leaveFrame_eq hw,
      bind, Except.bind, pure, Except.pure, hsame]
    split_ifs with hstop hended
    · exact .stop hsize hparts (sim.whole hrelated)
    all_goals
      refine .next hsize ?_ ⟨?_, ?_, sim.advance ?_ hrelated, hparts⟩
      · have hrest := @slice_overwrite_behind _ c.buffer
          (keystream mask 0 (slice c.buffer (c.src + messageHeader) payLength)) data
          (c.src + (payLength + messageHeader)) (c.length - (payLength + messageHeader))
          (by omega) (by omega)
        rw [Cursor.frame, Cursor.frame, slice_drop]
        exact hrest
      · simp only
        omega
      · simp only
        omega
      · simp only
        omega
  · rw [if_neg hlimit] at hunmask
    simp only [hunmask, bind, Except.bind]
    refine .overflow payLength ?_ (by omega)
    split_ifs <;> exact List.mem_append_right _ (List.mem_singleton.mpr hcount.symm)

/-- Only a part of a frame. -/
theorem consumePart_refines (sim : Simulates hooks spec R) {payLength messageHeader : ℕ}
    (hready : Ready (unmaskLimit variant) R c t s) (hheader : messageHeader ≤ c.length)
    (hlong : messageHeader ≤ 14) (hlength : c.length < payLength + messageHeader)
    (hpay : payLength ≤ unsignedMax) (hw : w.Reading) :
    Refines (unmaskLimit variant) c.buffer.length R
      (consumePart variant hooks payLength messageHeader c w t)
      (Eiows.consumePart (recordParts spec) payLength messageHeader c.frame w s) := by
  have hinside := hready.inside
  have hsmall := hready.length
  have hframe := hready.frame_length
  unfold unsignedMax at hpay
  have hremaining : (payLength + 2 ^ 64 - c.length + messageHeader) % 2 ^ 64 =
      payLength + messageHeader - c.length := by omega
  have hmod : (payLength + messageHeader - c.length) % 2 ^ 32 =
      payLength + messageHeader - c.length := Nat.mod_eq_of_lt (by omega)
  have hread : c.src + messageHeader + (c.length - messageHeader) ≤ c.buffer.length := by omega
  have hpayload : Eiows.unmaskImprecise (readMask c.frame (messageHeader - 4))
      (c.frame.drop messageHeader) = keystream (readMask c.frame (messageHeader - 4)) 0
        (slice c.buffer (c.src + messageHeader) (c.length - messageHeader)) := by
    rw [unmaskImprecise_eq_keystream, Cursor.frame, slice_drop]
  simp only [consumePart, Eiows.consumePart, hremaining, hframe, hmod, hpayload,
    unsigned_of_lt (by omega : payLength + messageHeader - c.length < 2 ^ 32),
    unsignedSub_of_le hheader]
  generalize hmask : readMask c.frame (messageHeader - 4) = mask
  generalize hcount : c.length - messageHeader = available at hread ⊢
  have hdata : c.src ≤ c.src + messageHeader := Nat.le_add_right _ _
  have hunmask := unmaskImprecise_eq variant mask hdata hread (by omega)
  have hpart : (keystream mask 0 (slice c.buffer (c.src + messageHeader) available)).length =
      available := by
    rw [keystream_length, slice_length hread]
  by_cases hlimit : available < unmaskLimit variant
  · rw [if_pos hlimit] at hunmask
    have hsize := @unmasked_length _ _ _ mask 0 _ hdata hread
    have hparts := parts_append hready.parts (hpart.trans_lt hlimit)
    have hcurrent := currentOpCode_eq (w := { w with
      spill := [], wantsHead := false, remainingBytes := payLength + messageHeader - c.length,
      mask := rotateMask (4 - available % 4) mask }) ⟨hw.stack, hw.fin, hw.left⟩
    obtain ⟨hsame, hrelated⟩ := sim.handled (t := t) (s := s) mask le_rfl hdata hread
      hready.related (payLength + messageHeader - c.length) w.currentOpCode (isFin c.frame)
    simp only [hunmask, load_unmasked hdata hread, hcurrent, bind, Except.bind, pure, Except.pure]
    exact .stop hsize hparts (sim.whole hrelated)
  · rw [if_neg hlimit] at hunmask
    simp only [hunmask, bind, Except.bind]
    exact .overflow available (List.mem_append_right _ (List.mem_singleton.mpr hpart.symm)) (by omega)

/-- The bookkeeping stays inside the stack. -/
theorem enterFrame_eq (hw : w.Idle) (opCode : OpCode) (fin : Bool) :
    enterFrame opCode fin w = .ok (Eiows.enterFrame opCode fin w) := by
  have hstack : w.opStack = -1 ∨ w.opStack = 0 := hw.imp (·.1) (·.1)
  have hfield : bitField 2 (w.opStack + 1) = .ok (w.opStack + 1) := by
    unfold bitField
    rw [if_pos]
    norm_num
    omega
  unfold enterFrame
  split
  · rename_i hentered
    rw [hentered]
    rfl
  · rename_i hentered
    simp only [hentered, hfield, indexed_of_lt (by omega : 0 ≤ w.opStack + 1)
      (by omega : w.opStack + 1 < (2 : ℕ)), bind, Except.bind, pure, Except.pure]
    split_ifs <;> rfl

/-- The limit on the payload length that the parser relies on. -/
def LimitsLength (spec : WebSocketProtocolHooks σ) : Prop :=
  ∀ length s, (spec.refusePayloadLength length s).1 = false → length ≤ unsignedMax

theorem refuseFrame_related (sim : Simulates hooks spec R) {before : Bytes} (h : R before t s)
    (data : ℕ) (opCode : OpCode) (length : ℕ) :
    (refuseFrame (hooks data) opCode length t).1 = (refuseFrame (recordParts spec) opCode length s).1 ∧
      R before (refuseFrame (hooks data) opCode length t).2
        (refuseFrame (recordParts spec) opCode length s).2 ∧
      (refuseFrame (recordParts spec) opCode length s).2.2 = s.2 := by
  unfold refuseFrame
  split_ifs
  · obtain ⟨hsame, hrelated⟩ := sim.refusePayloadLength data length h
    exact ⟨hsame, hrelated, rfl⟩
  · exact ⟨rfl, h, rfl⟩

theorem checkCompressed_related (sim : Simulates hooks spec R) {before : Bytes} (h : R before t s)
    (data : ℕ) (src : Bytes) :
    (checkCompressed (hooks data) src t).1 = (checkCompressed (recordParts spec) src s).1 ∧
      R before (checkCompressed (hooks data) src t).2 (checkCompressed (recordParts spec) src s).2 ∧
      (checkCompressed (recordParts spec) src s).2.2 = s.2 := by
  unfold checkCompressed
  split_ifs
  · exact ⟨rfl, h, rfl⟩
  · obtain ⟨hsame, hrelated⟩ := sim.setCompressed data h
    exact ⟨by rw [hsame], hrelated, rfl⟩
  · exact ⟨rfl, h, rfl⟩

/-- Complete headers announce lengths below `2 ^ 63`. -/
theorem announcedLength_lt {src : Bytes} (h : badExtendedLength src = false) :
    announcedLength src < 2 ^ 63 := by
  have hmarker := payloadLength_lt src
  have hshort : readUint16BE src 2 < 256 ^ 2 := by
    apply (bigEndian_lt _).trans_le
    exact Nat.pow_le_pow_right (by decide) (List.length_take_le _ _)
  unfold badExtendedLength at h
  unfold announcedLength
  split_ifs at h ⊢
  · omega
  · omega
  · simp only [Bool.or_eq_false_iff, decide_eq_false_iff_not] at h
    omega

/-- One frame with a valid header. -/
theorem consumeMessage_refines (sim : Simulates hooks spec R) (hlimits : LimitsLength spec)
    (hready : Ready (unmaskLimit variant) R c t s) (hw : w.Idle)
    (hheader : headerLengthOf (payloadLength c.frame) ≤ c.length)
    (hvalid : badHeader c.frame = false) (hextended : badExtendedLength c.frame = false) :
    Refines (unmaskLimit variant) c.buffer.length R
      (consumeMessage variant hooks (announcedLength c.frame)
        (headerLengthOf (payloadLength c.frame)) c w t)
      (Eiows.consumeMessage (recordParts spec) (announcedLength c.frame)
        (headerLengthOf (payloadLength c.frame)) c.frame w s) := by
  obtain ⟨-, hcontrol⟩ := valid_header hvalid
  have hannounced := announcedLength_lt hextended
  have hcases := headerLengthOf_cases (payloadLength c.frame)
  have hframe := hready.frame_length
  obtain ⟨hsame, hrelated, hparts⟩ := refuseFrame_related sim hready.related c.src
    (OpCode.ofNibble (getOpCode c.frame)) (announcedLength c.frame)
  simp only [consumeMessage, Eiows.consumeMessage, enterFrame_eq hw, bind, Except.bind, pure,
    Except.pure]
  cases hentered : Eiows.enterFrame (OpCode.ofNibble (getOpCode c.frame)) (isFin c.frame) w with
  | error w' => exact .stop rfl hready.parts (sim.whole (sim.forceClose c.src hready.related))
  | ok w' =>
    have hreading := enterFrame_reading hw (fun h => (hcontrol h).1) hentered
    simp only [hsame, unsigned_of_lt (by omega : announcedLength c.frame +
      headerLengthOf (payloadLength c.frame) < 2 ^ 64), hframe]
    cases hrefused : (refuseFrame (recordParts spec) (OpCode.ofNibble (getOpCode c.frame))
        (announcedLength c.frame) s).1 with
    | true =>
      simp only [if_true]
      exact .stop rfl (hparts ▸ hready.parts) (sim.whole (sim.forceClose c.src hrelated))
    | false =>
      simp only [Bool.false_eq_true, if_false]
      have hready' : Ready (unmaskLimit variant) R c (refuseFrame (hooks c.src)
          (OpCode.ofNibble (getOpCode c.frame)) (announcedLength c.frame) t).2
          (refuseFrame (recordParts spec) (OpCode.ofNibble (getOpCode c.frame))
            (announcedLength c.frame) s).2 :=
        ⟨hready.inside, hready.length, hrelated, hparts ▸ hready.parts⟩
      split_ifs with hwhole
      · exact consumeWhole_refines sim hready' (by omega) hwhole hreading
      · have hpay : announcedLength c.frame ≤ unsignedMax := by
          unfold refuseFrame at hrefused
          split_ifs at hrefused with hdata
          · exact hlimits _ _ hrefused
          · have := (hcontrol (by omega)).2
            unfold unsignedMax
            omega
        exact consumePart_refines sim hready' hheader (by omega) (by omega) hpay hreading

/-- The single bytes behind the last block of four. -/
theorem unmaskRest_eq {buffer : Bytes} {src n count : ℕ} (mask : Mask)
    (hinside : src + (n * 4 + count) ≤ buffer.length) (hsmall : n * 4 + count ≤ 2 ^ 31) :
    unmaskRest src n count mask (unmasked src src (n * 4) mask 0 buffer) =
      .ok (unmasked src src (n * 4 + count) mask 0 buffer) := by
  induction count with
  | zero => rfl
  | succ count ih =>
    have hbefore := ih (by omega) (by omega)
    have hphase : mask.byte count = mask.byte (n * 4 + count) := mask.byte_congr (by omega)
    have hbyte := @xorByte_unmasked _ _ _ buffer _ _ hphase (le_refl src)
      (by omega : src + (n * 4 + count + 1) ≤ buffer.length)
    unfold unmaskRest at hbefore ⊢
    rw [List.range_succ, List.foldlM_append, hbefore]
    simp only [List.foldlM_cons, List.foldlM_nil, signed_of_lt (by omega : n * 4 + count < 2 ^ (32 - 1)),
      hbyte, bind, Except.bind, pure, Except.pure]
    rfl

/-- The next part of a frame, unless it ends the frame and `n * 4` leaves `int`. -/
theorem consumeContinuation_refines (sim : Simulates hooks spec R)
    (hready : Ready (unmaskLimit variant) R c t s) (hw : w.Reading)
    (hlast : w.remainingBytes ≤ c.length → w.remainingBytes < 2 ^ 31) :
    Refines (unmaskLimit variant) c.buffer.length R (consumeContinuation variant hooks c w t)
      (Eiows.consumeContinuation (recordParts spec) c.frame w s) := by
  have hinside := hready.inside
  have hsmall := hready.length
  have hframe := hready.frame_length
  have hlimits := unmaskLimit_le variant
  simp only [consumeContinuation, Eiows.consumeContinuation, hframe]
  by_cases hwhole : w.remainingBytes ≤ c.length
  · have hremaining := hlast hwhole
    have hsplit : w.remainingBytes / 4 * 4 + w.remainingBytes % 4 = w.remainingBytes := by omega
    have hread : c.src + w.remainingBytes ≤ c.buffer.length := by omega
    have hblocks : unmaskInplace variant c.src (w.remainingBytes / 4 * 4) w.mask c.buffer =
        .ok (unmasked c.src c.src (w.remainingBytes / 4 * 4) w.mask 0 c.buffer) := by
      rw [unmaskInplace, unmaskImprecise_eq variant w.mask le_rfl (by omega) (by omega),
        if_pos (by omega)]
    have hrest := @unmaskRest_eq c.buffer c.src (w.remainingBytes / 4)
      (w.remainingBytes % 4) w.mask (by omega) (by omega)
    rw [hsplit] at hrest
    have hpayload : unmaskFinal (c.frame.take w.remainingBytes) w.mask =
        keystream w.mask 0 (slice c.buffer c.src w.remainingBytes) := by
      rw [unmaskFinal_eq_keystream, Cursor.frame, slice_take _ _ hwhole]
      rw [List.length_take]
      omega
    have hcount : (keystream w.mask 0 (slice c.buffer c.src w.remainingBytes)).length =
        w.remainingBytes := by
      rw [keystream_length, slice_length hread]
    have hsize := @unmasked_length _ _ _ w.mask 0 _ (le_refl c.src) hread
    obtain ⟨hsame, hrelated⟩ := sim.handled (t := t) (s := s) w.mask le_rfl le_rfl hread
      hready.related 0 w.currentOpCode w.lastFin
    have hparts := parts_append hready.parts (hcount.trans_lt (by omega :
      w.remainingBytes < unmaskLimit variant))
    simp only [if_pos hwhole, signed_of_lt (by omega : w.remainingBytes / 4 * 4 < 2 ^ (32 - 1)), hblocks,
      hrest, load_unmasked le_rfl hread, currentOpCode_eq hw, leaveFrame_eq hw, hpayload, bind,
      Except.bind, pure, Except.pure, hsame]
    split_ifs with hstop hended
    · exact .stop hsize hparts (sim.whole hrelated)
    all_goals
      refine .next hsize ?_ ⟨?_, ?_, hrelated, hparts⟩
      · have hbehind := @slice_overwrite_behind _ c.buffer
          (keystream w.mask 0 (slice c.buffer c.src w.remainingBytes)) c.src
          (c.src + w.remainingBytes) (c.length - w.remainingBytes)
          (by omega) (by omega)
        rw [Cursor.frame, Cursor.frame, slice_drop]
        exact hbehind
      · simp only
        omega
      · simp only
        omega
  · have hpayload : Eiows.unmaskInplace c.frame c.length w.mask =
        keystream w.mask 0 (slice c.buffer c.src c.length) := by
      have hall := unmaskInplace_length c.frame w.mask
      rw [hframe] at hall
      exact hall
    have hcount : (keystream w.mask 0 (slice c.buffer c.src c.length)).length = c.length := by
      rw [keystream_length, slice_length hinside]
    have hunmask := unmaskImprecise_eq variant w.mask (le_refl c.src) hinside hsmall
    have hcurrent := currentOpCode_eq (w := { w with remainingBytes := w.remainingBytes - c.length })
      ⟨hw.stack, hw.fin, hw.left⟩
    simp only [if_neg hwhole, unmaskInplace, hunmask, hpayload, bind, Except.bind, pure, Except.pure]
    by_cases hlimit : c.length < unmaskLimit variant
    · have hsize := @unmasked_length _ _ _ w.mask 0 _ (le_refl c.src) hinside
      have hparts := parts_append hready.parts (hcount.trans_lt hlimit)
      obtain ⟨hsame, hrelated⟩ := sim.handled (t := t) (s := s) w.mask le_rfl le_rfl hinside
        hready.related (w.remainingBytes - c.length) w.currentOpCode w.lastFin
      have hopCode : WebSocketState.currentOpCode
          { w with remainingBytes := w.remainingBytes - c.length } = w.currentOpCode := rfl
      simp only [if_pos hlimit, load_unmasked le_rfl hinside, hcurrent, hopCode, hsame]
      split_ifs with hstop hrotated
      · exact .stop hsize hparts (sim.whole hrelated)
      · exact .stop hsize hparts (sim.whole hrelated)
      · exact .stop hsize hparts (sim.whole hrelated)
    · simp only [if_neg hlimit]
      refine .overflow c.length ?_ (by omega)
      split_ifs <;> exact List.mem_append_right _ (List.mem_singleton.mpr hcount.symm)

/-- The parser on a buffer ends as the parser on lists, or a payload was too long. -/
inductive Parsed (limit size : ℕ) (R : Bytes → τ → σ × List ℕ → Prop) :
    Checked (Bytes × WebSocketState × τ) → WebSocketState × (σ × List ℕ) → Prop
  | done {buffer : Bytes} {w : WebSocketState} {t : τ} {s : σ × List ℕ} (length : buffer.length = size)
      (parts : ∀ n ∈ s.2, n < limit) (related : R buffer t s) :
      Parsed limit size R (.ok (buffer, w, t)) (w, s)
  | overflow {r : WebSocketState × (σ × List ℕ)} (n : ℕ) (part : n ∈ r.2.2) (long : limit ≤ n) :
      Parsed limit size R (.error .overflow) r

theorem saveSpill_eq {frame : Bytes} (h : IncompleteHeader frame) (w : WebSocketState) :
    saveSpill frame w = .ok { w with spill := frame } := by
  have hlength := h.1
  simp only [saveSpill, if_neg (Nat.not_lt.mpr hlength),
    unsignedField_of_lt (by omega : frame.length < 2 ^ 4), bind, Except.bind, pure, Except.pure]

/-- Nothing that a hook records is forgotten by the frames that follow. -/
theorem parts_parseNext {src : Bytes} {n : ℕ} (h : n ∈ s.2) :
    n ∈ (Eiows.parseNext (recordParts spec) src w s).2.2 :=
  (parseNext_keeps (recordParts_keep spec) (fun _ => List.prefix_rfl) List.IsPrefix.trans _ src w s
    rfl).subset h

/-- Continuing after a frame, the parser is between frames. -/
theorem consumeMessage_idle (hlimits : LimitsLength spec) {src src' : Bytes}
    {w' : WebSocketState} {s' : σ × List ℕ} (hwants : w.wantsHead = true) (hw : w.Idle)
    (hheader : headerLengthOf (payloadLength src) ≤ src.length) (hvalid : badHeader src = false)
    (h : Eiows.consumeMessage (recordParts spec) (announcedLength src)
      (headerLengthOf (payloadLength src)) src w s = .next src' w' s') :
    w'.wantsHead = true ∧ w'.Idle := by
  have hooked : (recordParts spec).Maintain (fun _ => True) (fun _ _ _ => True) (fun _ => True) := by
    constructor
    · exact fun _ h => h
    · exact fun _ _ h => h
    · exact fun length s _ hgoes => ⟨hlimits length s.1 hgoes, fun _ _ => trivial⟩
    · exact fun _ _ _ _ _ _ => trivial
    · exact fun _ h => h
    · exact fun _ _ _ _ _ _ _ _ => trivial
    · exact fun _ _ _ _ _ _ _ _ => ⟨trivial, fun _ => trivial⟩
  have hconsumed := consumeMessage_represents hooked (s := s) hwants hw trivial hheader hvalid
  rw [h] at hconsumed
  cases hconsumed with
  | next hwants' hw' _ _ => exact ⟨hwants', hw'⟩

/-- The loop over the frames of a chunk. -/
theorem parseNext_refines (sim : Simulates hooks spec R) (hlimits : LimitsLength spec) (n : ℕ) :
    ∀ {c : Cursor} {w : WebSocketState} {t : τ} {s : σ × List ℕ}, c.length = n →
      Ready (unmaskLimit variant) R c t s → w.wantsHead = true → w.Idle →
        Parsed (unmaskLimit variant) c.buffer.length R (parseNext variant hooks c w t)
          (Eiows.parseNext (recordParts spec) c.frame w s) := by
  induction n using Nat.strong_induction_on with
  | _ n ih =>
    intro c w t s hn hready hwants hw
    have hframe := hready.frame_length
    have hload : load c.buffer c.src c.length = .ok c.frame := load_of_le hready.inside
    by_cases hshort : c.frame.length < shortMessageHeader ∨
        c.frame.length < headerLengthOf (payloadLength c.frame)
    · rw [parseNext_of_incomplete _ hshort, parseNext, hload]
      simp only [if_pos hshort, saveSpill_eq (incompleteHeader_of_short hshort), Except.map]
      split_ifs
      · exact .done rfl hready.parts (sim.whole hready.related)
      · exact .done rfl hready.parts (sim.whole hready.related)
    · obtain ⟨hsame, hrelated, hparts⟩ := checkCompressed_related sim hready.related c.src c.frame
      have hready' : Ready (unmaskLimit variant) R c (checkCompressed (hooks c.src) c.frame t).2
          (checkCompressed (recordParts spec) c.frame s).2 :=
        ⟨hready.inside, hready.length, hrelated, hparts ▸ hready.parts⟩
      rw [parseNext_of_complete _ hshort, parseNext, hload]
      simp only [if_neg hshort, hsame]
      split_ifs with hbad
      · exact .done rfl hready'.parts (sim.whole (sim.forceClose c.src hrelated))
      · simp only [Bool.or_eq_true, not_or, Bool.not_eq_true] at hbad
        obtain ⟨⟨-, hvalid⟩, hextended⟩ := hbad
        have hconsumed := consumeMessage_refines sim hlimits hready' hw (by omega) hvalid hextended
        have hidle := fun src' w' s' => @consumeMessage_idle _ _ _
          (checkCompressed (recordParts spec) c.frame s).2 hlimits _ src' w' s' hwants hw (by omega) hvalid
        generalize hlist : Eiows.consumeMessage (recordParts spec) (announcedLength c.frame)
          (headerLengthOf (payloadLength c.frame)) c.frame w
          (checkCompressed (recordParts spec) c.frame s).2 = result at hconsumed hidle ⊢
        split
        · rename_i fault hmachine
          rw [hmachine] at hconsumed
          cases hconsumed with
          | overflow n part long =>
            refine .overflow n ?_ long
            cases result with
            | stop w' s' => exact part
            | next rest w' s' => exact parts_parseNext part
        · rename_i buffer w' t' hmachine
          rw [hmachine] at hconsumed
          cases hconsumed with
          | stop length parts related => exact .done length parts related
        · rename_i rest w' t' hmachine
          have hlength := InPlace.consumeMessage_next variant hooks hmachine
          have hheader := headerLengthOf_cases (payloadLength c.frame)
          rw [hmachine] at hconsumed
          cases hconsumed with
          | next length frame ready =>
            obtain ⟨hwants', hw'⟩ := hidle _ _ _ rfl
            have hrest := ih rest.length (by omega) rfl ready hwants' hw'
            rw [frame, length] at hrest
            exact hrest

/-- The parser state that a call starts from: between frames, or inside one with no
saved header. -/
structure Started (w : WebSocketState) : Prop where
  between : w.wantsHead = true → w.Idle
  inside : w.wantsHead = false → w.Reading ∧ w.spill = []

/-- A frame begun in an earlier chunk is completed only when fewer than `2 ^ 31` bytes
of it are missing. -/
def CompletesWithin (w : WebSocketState) (length : ℕ) : Prop :=
  w.wantsHead = false → w.remainingBytes ≤ length → w.remainingBytes < 2 ^ 31

/-- A call of the parser, with room for the saved header before the chunk. -/
theorem consume_refines (variant : UnmaskVariant) (sim : Simulates hooks spec R) (hlimits : LimitsLength spec)
    (hw : Started w) (hinside : c.src + c.length ≤ c.buffer.length)
    (hroom : w.spill.length ≤ c.src) (hlength : c.length + w.spill.length < 2 ^ 32)
    (hrelated : R (c.buffer.take (c.src - w.spill.length)) t s)
    (hparts : ∀ n ∈ s.2, n < unmaskLimit variant) (hcompletes : CompletesWithin w c.length) :
    Parsed (unmaskLimit variant) c.buffer.length R (consume variant hooks c w t)
      (Eiows.consume (recordParts spec) c.frame w s) := by
  have hframe : c.frame.length = c.length := slice_length hinside
  cases hwants : w.wantsHead with
  | true =>
    unfold consume Eiows.consume
    simp only [hwants, if_true]
    by_cases hspill : w.spill = []
    · simp only [hspill, if_true, List.nil_append, bind, Except.bind, pure, Except.pure]
      rw [hspill, List.length_nil, Nat.sub_zero] at hrelated
      exact parseNext_refines sim hlimits _ rfl ⟨hinside, by omega, hrelated, hparts⟩ hwants
        (hw.between hwants)
    · have hstore : store c.buffer (c.src - w.spill.length) w.spill =
          .ok (overwrite c.buffer (c.src - w.spill.length) w.spill) := store_of_le (by omega)
      have hsize := @overwrite_length _ c.buffer w.spill (c.src - w.spill.length)
        (by omega)
      simp only [if_neg hspill, if_neg (Nat.not_lt.mpr hroom), unsigned_of_lt hlength, hstore, bind,
        Except.bind, pure, Except.pure]
      have hready : Ready (unmaskLimit variant) R ⟨overwrite c.buffer (c.src - w.spill.length) w.spill,
          c.src - w.spill.length, c.length + w.spill.length⟩ t s := by
        refine ⟨?_, hlength, ?_, hparts⟩
        · simp only [hsize]
          omega
        · have hbefore : c.src - w.spill.length ≤ c.buffer.length := by omega
          rw [take_overwrite_of_le le_rfl hbefore]
          exact hrelated
      have hrest := parseNext_refines sim hlimits _ rfl hready hwants (hw.between hwants)
      have hjoined : slice (overwrite c.buffer (c.src - w.spill.length) w.spill)
          (c.src - w.spill.length) (c.length + w.spill.length) = w.spill ++ c.frame := by
        have hback : c.src - w.spill.length + w.spill.length = c.src := Nat.sub_add_cancel hroom
        rw [Nat.add_comm, slice_add, slice_overwrite_self (by omega), hback,
          slice_overwrite_behind (by omega) (by omega), Cursor.frame]
      simp only [Cursor.frame] at hrest hjoined ⊢
      rw [hjoined, hsize] at hrest
      exact hrest
  | false =>
    obtain ⟨hreading, hspill⟩ := hw.inside hwants
    rw [hspill, List.length_nil, Nat.sub_zero] at hrelated
    unfold consume Eiows.consume
    simp only [hwants, hspill, if_true, List.nil_append, bind, Except.bind, pure, Except.pure,
      Bool.false_eq_true, if_false]
    have hready : Ready (unmaskLimit variant) R c t s := ⟨hinside, by omega, hrelated, hparts⟩
    have hconsumed := consumeContinuation_refines sim hready hreading (hcompletes hwants)
    have hidle : ∀ rest w' s', Eiows.consumeContinuation (recordParts spec) c.frame w s =
        .next rest w' s' → w'.wantsHead = true ∧ w'.Idle := by
      intro rest w' s' h
      unfold Eiows.consumeContinuation at h
      simp only at h
      split_ifs at h with hwhole hstop hlast
      all_goals
        cases h
        refine ⟨rfl, ?_⟩
        have hleft : WebSocketState.Idle { w.left with wantsHead := true } := hreading.left
        simpa [WebSocketState.left, hlast] using hleft
    generalize hlist : Eiows.consumeContinuation (recordParts spec) c.frame w s = result
      at hconsumed hidle ⊢
    generalize consumeContinuation variant hooks c w t = machine at hconsumed ⊢
    cases hconsumed with
    | stop length parts related => exact .done length parts related
    | next length frame ready =>
      obtain ⟨hwants', hw'⟩ := hidle _ _ _ rfl
      have hrest := parseNext_refines sim hlimits _ rfl ready hwants' hw'
      rw [frame, length] at hrest
      exact hrest
    | overflow n part long =>
      refine .overflow n ?_ long
      cases result with
      | stop w' s' => exact part
      | next rest w' s' => exact parts_parseNext part

/-- Completing a frame of which too many bytes are missing leaves `int`. -/
theorem consume_overflow (hw : Started w) (hcompletes : ¬CompletesWithin w c.length) :
    consume variant hooks c w t = .error .overflow := by
  simp only [CompletesWithin, Classical.not_imp] at hcompletes
  obtain ⟨hwants, hwhole, hlong⟩ := hcompletes
  obtain ⟨-, hspill⟩ := hw.inside hwants
  have hblocks : signed 32 (w.remainingBytes / 4 * 4) = .error .overflow :=
    signed_of_le (by omega)
  unfold consume consumeContinuation
  simp only [hwants, hspill, if_true, Bool.false_eq_true, if_false, bind, Except.bind, pure,
    Except.pure, if_pos hwhole, hblocks]

end InPlace

end Eiows
