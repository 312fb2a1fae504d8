import Eiows.Receiver.Frames

/-!
# Client frames

The frames that a conforming client writes: masked, without reserved bits, and
with the shortest length encoding. Reading one back gives its header, and
unmasking the rest gives its payload.
-/

namespace Eiows

/-- A frame of a client, with its payload before masking. A control frame is
whole and short. -/
structure ClientFrame where
  fin : Bool
  rsv1 : Bool
  opCode : OpCode
  key : Mask
  payload : Bytes
  control : opCode.isControl = true → fin = true ∧ payload.length ≤ 125
  length_lt : payload.length < 2 ^ 63

namespace ClientFrame

/-- The seven-bit marker of the shortest length encoding. -/
def marker (length : ℕ) : ℕ := if length < 126 then length else if length ≤ 65535 then 126 else 127

/-- The extended length of the shortest length encoding. -/
def extendedLength (length : ℕ) : Bytes :=
  if length < 126 then []
  else if length ≤ 65535 then bigEndianBytes 2 length
  else bigEndianBytes 8 length

/-- The first byte of a frame. -/
def firstByte (f : ClientFrame) : UInt8 :=
  UInt8.ofNat ((if f.fin then 128 else 0) + (if f.rsv1 then 64 else 0) + f.opCode.value)

/-- The bytes of a frame on the wire. -/
def encode (f : ClientFrame) : Bytes :=
  f.firstByte :: UInt8.ofNat (128 + marker f.payload.length) ::
    (extendedLength f.payload.length ++ f.key.toList ++ keystream f.key 0 f.payload)

/-- The header of a frame. -/
def header (f : ClientFrame) : FrameHeader where
  fin := f.fin
  rsv1 := f.rsv1
  rsv23 := false
  nibble := f.opCode.value
  masked := true
  marker := marker f.payload.length
  length := f.payload.length
  key := f.key

private theorem firstByte_fields (f : ClientFrame) :
    (f.firstByte &&& 128 != 0) = f.fin ∧ (f.firstByte &&& 64 != 0) = f.rsv1 ∧
      (f.firstByte &&& 48 != 0) = false ∧ (f.firstByte &&& 15).toNat = f.opCode.value := by
  have h : ∀ (fin rsv1 : Bool) (v : Fin 16),
      let b := UInt8.ofNat ((if fin then 128 else 0) + (if rsv1 then 64 else 0) + v.val)
      (b &&& 128 != 0) = fin ∧ (b &&& 64 != 0) = rsv1 ∧ (b &&& 48 != 0) = false ∧
        (b &&& 15).toNat = v.val := by decide +kernel
  exact h f.fin f.rsv1 ⟨f.opCode.value, f.opCode.value_lt⟩

private theorem lengthByte_fields {m : ℕ} (hm : m < 128) :
    (UInt8.ofNat (128 + m) &&& 128 != 0) = true ∧ (UInt8.ofNat (128 + m) &&& 127).toNat = m := by
  have h : ∀ m : Fin 128, (UInt8.ofNat (128 + m.val) &&& 128 != 0) = true ∧
      (UInt8.ofNat (128 + m.val) &&& 127).toNat = m.val := by decide +kernel
  exact h ⟨m, hm⟩

private theorem marker_lt (length : ℕ) : marker length < 128 := by
  unfold marker
  split_ifs <;> omega

private theorem extendedLength_length (length : ℕ) :
    (extendedLength length).length + 6 = headerLengthOf (marker length) := by
  unfold extendedLength marker headerLengthOf shortMessageHeader mediumMessageHeader
    longMessageHeader
  split_ifs <;> simp_all

private theorem byteAt_append_right (front back : Bytes) (i : ℕ) :
    byteAt (front ++ back) (front.length + i) = byteAt back i := by
  simp [byteAt, List.getD, List.getElem?_append_right]

private theorem readMask_append (front rest : Bytes) (key : Mask) :
    readMask (front ++ (key.toList ++ rest)) front.length = key := by
  have hbyte : ∀ i (hi : i < 4), byteAt (key.toList ++ rest) i = key[i] := by
    intro i hi
    simp [byteAt, List.getD, List.getElem?_append_left, hi]
  have hzero := byteAt_append_right front (key.toList ++ rest) 0
  rw [Nat.add_zero] at hzero
  apply Vector.ext
  intro i hi
  simp only [readMask, hzero, byteAt_append_right]
  interval_cases i <;> exact hbyte _ (by decide)

/-- The length field of a client frame announces the payload length. -/
private theorem announcedLength_encode {src : Bytes} {length : ℕ} (rest : Bytes)
    (hlength : length < 2 ^ 64) (hmarker : payloadLength src = marker length)
    (hrest : src.drop 2 = extendedLength length ++ rest) : announcedLength src = length := by
  unfold announcedLength
  rw [hmarker]
  unfold marker
  unfold extendedLength at hrest
  by_cases hsmall : length < 126
  · simp only [if_pos hsmall]
  · by_cases hmedium : length ≤ 65535
    · rw [if_neg hsmall, if_pos hmedium] at hrest ⊢
      rw [if_neg (by decide), if_pos rfl, readUint16BE, hrest,
        List.take_left' (bigEndianBytes_length 2 length)]
      exact bigEndian_bigEndianBytes (by omega)
    · rw [if_neg hsmall, if_neg hmedium] at hrest ⊢
      rw [if_neg (by decide), if_neg (by decide), readUint64BE, hrest,
        List.take_left' (bigEndianBytes_length 8 length)]
      exact bigEndian_bigEndianBytes (by omega)

/-- A client frame is read back from the front of a buffer. -/
theorem parseHeader_encode (f : ClientFrame) (rest : Bytes) :
    parseHeader (f.encode ++ rest) = some f.header := by
  have hlength : f.payload.length < 2 ^ 64 := f.length_lt.trans (by decide)
  obtain ⟨hfin, hrsv1, hrsv23, hnibble⟩ := f.firstByte_fields
  obtain ⟨hmasked, hmarker⟩ := lengthByte_fields (marker_lt f.payload.length)
  have hsize := extendedLength_length f.payload.length
  have hzero : byteAt (f.encode ++ rest) 0 = f.firstByte := rfl
  have hone : byteAt (f.encode ++ rest) 1 = UInt8.ofNat (128 + marker f.payload.length) := rfl
  have hpayload : payloadLength (f.encode ++ rest) = marker f.payload.length := by
    rw [payloadLength, hone, hmarker]
  have hannounced : announcedLength (f.encode ++ rest) = f.payload.length :=
    announcedLength_encode (f.key.toList ++ keystream f.key 0 f.payload ++ rest) hlength hpayload
      (by simp [encode])
  have hkey : readMask (f.encode ++ rest) (headerLengthOf (marker f.payload.length) - 4) =
      f.key := by
    have hoffset : headerLengthOf (marker f.payload.length) - 4 =
        (f.firstByte :: UInt8.ofNat (128 + marker f.payload.length) ::
          extendedLength f.payload.length).length := by
      simp only [List.length_cons]
      omega
    have hencode : f.encode ++ rest =
        (f.firstByte :: UInt8.ofNat (128 + marker f.payload.length) ::
          extendedLength f.payload.length) ++
          (f.key.toList ++ (keystream f.key 0 f.payload ++ rest)) := by
      simp [encode]
    rw [hoffset, hencode]
    exact readMask_append _ _ _
  have htotal : (f.encode ++ rest).length =
      headerLengthOf (marker f.payload.length) + f.payload.length + rest.length := by
    simp only [encode, List.length_append, List.length_cons, keystream_length,
      Vector.length_toList]
    omega
  rw [parseHeader, if_neg (by unfold shortMessageHeader; omega), hpayload, if_neg (by omega)]
  simp only [isFin, Eiows.rsv1, rsv23, getOpCode, isMasked, hzero, hone, hfin, hrsv1, hrsv23, hnibble,
    hmasked, hannounced, hkey, header]

@[simp] theorem length_encode (f : ClientFrame) :
    f.encode.length = f.header.size + f.payload.length := by
  have hsize := extendedLength_length f.payload.length
  simp only [encode, header, FrameHeader.size, List.length_append, List.length_cons,
    keystream_length, Vector.length_toList]
  omega

/-- Behind the header lies the masked payload. -/
theorem drop_encode (f : ClientFrame) (rest : Bytes) :
    (f.encode ++ rest).drop f.header.size = keystream f.key 0 f.payload ++ rest := by
  have hsize := extendedLength_length f.payload.length
  have hencode : f.encode ++ rest =
      (f.firstByte :: UInt8.ofNat (128 + marker f.payload.length) ::
        (extendedLength f.payload.length ++ f.key.toList)) ++
        (keystream f.key 0 f.payload ++ rest) := by
    simp [encode]
  rw [hencode]
  refine List.drop_left' ?_
  simp only [header, FrameHeader.size, List.length_cons, List.length_append, Vector.length_toList]
  omega

/-- A client frame is never malformed. -/
theorem header_malformed (f : ClientFrame) : f.header.malformed = false := by
  have hnibble : f.header.nibble ≤ 2 ∨ 8 ≤ f.header.nibble ∧ f.header.nibble ≤ 10 := by
    simp only [header]
    cases f.opCode <;> decide
  have hshort : 2 < f.header.nibble → f.header.fin = true ∧ f.header.marker ≤ 125 := by
    intro hlarge
    obtain ⟨hfin, hle⟩ := f.control (by simp only [OpCode.isControl, decide_eq_true_eq]; exact hlarge)
    refine ⟨hfin, ?_⟩
    simp only [header, marker]
    split_ifs <;> omega
  have hlong : f.header.length < 2 ^ 63 := f.length_lt
  have hmedium : f.header.marker = 126 → 126 ≤ f.header.length := by
    simp only [header, marker]
    split_ifs <;> omega
  have hhuge : f.header.marker = 127 → 65535 < f.header.length := by
    simp only [header, marker]
    split_ifs <;> omega
  have hmasked : f.header.masked = true := rfl
  have hrsv23 : f.header.rsv23 = false := rfl
  simp only [FrameHeader.malformed, hmasked, hrsv23, Bool.not_true, Bool.false_or,
    Bool.or_eq_false_iff, Bool.and_eq_false_iff, decide_eq_false_iff_not, Bool.not_eq_false',
    beq_eq_false_iff_ne]
  refine ⟨⟨⟨⟨by omega, by omega⟩, ?_⟩, by omega⟩, by omega⟩
  by_cases hlarge : 2 < f.header.nibble
  · obtain ⟨hfin, hle⟩ := hshort hlarge
    exact .inr ⟨hfin, by omega⟩
  · exact .inl hlarge

/-- The answer to a frame besides Close frames. -/
def answer (f : ClientFrame) : List Event :=
  if f.opCode = .ping then [.frame (0x8a :: UInt8.ofNat f.payload.length :: f.payload)] else []

/-- Control frames are no data frames. -/
theorem isData_header (f : ClientFrame) : f.header.isData = !f.opCode.isControl := by
  have h : ∀ opCode : OpCode, decide (opCode.value ≤ 2) = !opCode.isControl := by
    intro opCode
    cases opCode <;> rfl
  exact h f.opCode

theorem opCode_header (f : ClientFrame) : f.header.opCode = f.opCode := OpCode.ofNibble_value _

theorem nibble_header (f : ClientFrame) : f.header.nibble = 0 ↔ f.opCode = .none := by
  have h : ∀ opCode : OpCode, opCode.value = 0 ↔ opCode = .none := by
    intro opCode
    cases opCode <;> decide
  exact h f.opCode

/-- The bytes of several frames. -/
def encodeAll (fs : List ClientFrame) : Bytes := fs.flatMap encode

@[simp] theorem encodeAll_append (fs gs : List ClientFrame) :
    encodeAll (fs ++ gs) = encodeAll fs ++ encodeAll gs := List.flatMap_append

end ClientFrame

/-- An open receiver accepts the frames one after the other. -/
inductive Receiver.Accepts {Z : Zlib} :
    Receiver Z → List ClientFrame → Receiver Z → List Event → Prop
  | nil (r : Receiver Z) : Accepts r [] r []
  | cons {r r' r'' : Receiver Z} {f : ClientFrame} {fs : List ClientFrame} {es es' : List Event}
      (receiverOpen : r.closing = false) (accepted : r.judgeHeader f.header = none)
      (delivered : r.deliver f.header f.payload = (r', es)) (rest : Accepts r' fs r'' es') :
      Accepts r (f :: fs) r'' (es ++ es')

namespace Receiver

variable {Z : Zlib} {r r' r'' : Receiver Z}

/-- Draining an accepted client frame delivers its payload. -/
theorem next_encode (f : ClientFrame) (rest : Bytes) (hopen : r.closing = false)
    (hok : r.judgeHeader f.header = none) :
    (decoder Z).next r (f.encode ++ rest) =
      some ((r.deliver f.header f.payload).1, (r.deliver f.header f.payload).2,
        f.encode.length) := by
  have hlength : f.header.length = (keystream f.key 0 f.payload).length :=
    (keystream_length _ _ _).symm
  have hpayload : keystream f.header.key 0
      (((f.encode ++ rest).drop f.header.size).take f.header.length) = f.payload := by
    rw [ClientFrame.drop_encode, List.take_left' hlength.symm]
    exact keystream_keystream _ _ _
  rw [next_of_whole hopen (f.parseHeader_encode rest) hok, hpayload, f.length_encode]
  · rfl
  · rw [List.length_append, f.length_encode]
    exact Nat.le_add_right _ _

theorem drain_encode (f : ClientFrame) (rest : Bytes) (hopen : r.closing = false)
    (hok : r.judgeHeader f.header = none) :
    (decoder Z).drain r (f.encode ++ rest) =
      (((decoder Z).drain (r.deliver f.header f.payload).1 rest).1,
        ((decoder Z).drain (r.deliver f.header f.payload).1 rest).2.1,
        (r.deliver f.header f.payload).2 ++
          ((decoder Z).drain (r.deliver f.header f.payload).1 rest).2.2) := by
  rw [(decoder Z).drain_of_next (next_encode f rest hopen hok), List.drop_left]

theorem Accepts.append {fs gs : List ClientFrame} {es es' : List Event} (h : r.Accepts fs r' es)
    (h' : r'.Accepts gs r'' es') : r.Accepts (fs ++ gs) r'' (es ++ es') := by
  induction h with
  | nil => exact h'
  | cons hopen hok hdelivered _ ih =>
    rw [List.append_assoc]
    exact .cons hopen hok hdelivered (ih h')

/-- Accepted frames are read from the wire one after the other. -/
theorem Accepts.drain {fs : List ClientFrame} {es : List Event} (h : r.Accepts fs r' es)
    (rest : Bytes) :
    (decoder Z).drain r (ClientFrame.encodeAll fs ++ rest) =
      (((decoder Z).drain r' rest).1, ((decoder Z).drain r' rest).2.1,
        es ++ ((decoder Z).drain r' rest).2.2) := by
  induction h with
  | nil => rfl
  | cons hopen hok hdelivered _ ih =>
    rw [ClientFrame.encodeAll, List.flatMap_cons, List.append_assoc, drain_encode _ _ hopen hok,
      hdelivered, ← ClientFrame.encodeAll, ih, List.append_assoc]

/-- The header of a control frame without RSV1 may always follow. -/
theorem judgeHeader_control {f : ClientFrame} (hcontrol : f.opCode.isControl = true)
    (hrsv : f.rsv1 = false) : r.judgeHeader f.header = none := by
  have hdata : f.header.isData = false := by rw [f.isData_header, hcontrol]; rfl
  have hnonzero : f.header.nibble ≠ 0 := by
    rw [ne_eq, f.nibble_header]
    rintro hnone
    rw [hnone] at hcontrol
    cases hcontrol
  refine judgeHeader_eq_none.mpr ⟨f.header_malformed, ?_, ?_, ?_⟩
  · simp [badCompression, ClientFrame.header, hrsv]
  · simp [outOfSequence, hdata, hnonzero]
  · simp [tooLong, hdata]

/-- A Ping or Pong leaves the receiver as it is. -/
theorem deliver_control (r : Receiver Z) {f : ClientFrame}
    (hopCode : f.opCode = .ping ∨ f.opCode = .pong) :
    r.deliver f.header f.payload = (r, f.answer) := by
  have hcontrol : f.opCode.isControl = true := by rcases hopCode with h | h <;> rw [h] <;> rfl
  have hdata : f.header.isData = false := by rw [f.isData_header, hcontrol]; rfl
  have hpong : formatFrame f.payload .pong false =
      0x8a :: UInt8.ofNat f.payload.length :: f.payload :=
    formatFrame_short .pong (f.control hcontrol).2
  simp only [deliver, hdata, Bool.false_eq_true, if_false, deliverControl, f.opCode_header,
    ClientFrame.answer, ← hpong]
  rcases hopCode with h | h <;> simp [h]

/-- A Ping or Pong is accepted in any open state. -/
theorem accepts_control {f : ClientFrame} (hopen : r.closing = false)
    (hopCode : f.opCode = .ping ∨ f.opCode = .pong) (hrsv : f.rsv1 = false) :
    r.Accepts [f] r f.answer := by
  have hcontrol : f.opCode.isControl = true := by rcases hopCode with h | h <;> rw [h] <;> rfl
  have haccepts := Accepts.cons hopen (judgeHeader_control hcontrol hrsv) (r.deliver_control hopCode)
    (.nil r)
  rwa [List.append_nil] at haccepts

end Receiver

end Eiows
