import Eiows.Protocol.Masking
import Mathlib.Data.FinEnum
import Mathlib.Tactic.Ring

/-!
# Frame headers

The wire layout of a frame header, as the parser reads it and as a client
writes it. A client frame is masked and uses the shortest length encoding; the
header length is 6, 8 or 14 bytes, including the masking key.
-/

namespace Eiows

/-- `enum OpCode`. -/
inductive OpCode where
  | none
  | text
  | binary
  | close
  | ping
  | pong
  deriving DecidableEq, Repr

/-- The wire value of an opcode. -/
def OpCode.value : OpCode → ℕ
  | .none => 0
  | .text => 1
  | .binary => 2
  | .close => 8
  | .ping => 9
  | .pong => 10

/-- `static_cast<OpCode>` of a nibble. The parser casts only the nibbles that
its header validation accepts; see `OpCode.value_ofNibble`. -/
def OpCode.ofNibble : ℕ → OpCode
  | 1 => .text
  | 2 => .binary
  | 8 => .close
  | 9 => .ping
  | 10 => .pong
  | _ => .none

/-- Control opcodes are those from `CLOSE` on. -/
def OpCode.isControl (opCode : OpCode) : Bool := 2 < opCode.value

@[simp] theorem OpCode.ofNibble_value (opCode : OpCode) :
    OpCode.ofNibble opCode.value = opCode := by
  cases opCode <;> rfl

/-- The cast loses nothing on the nibbles that pass the header validation. -/
theorem OpCode.value_ofNibble {n : ℕ} (h : n ≤ 2 ∨ 8 ≤ n ∧ n ≤ 10) :
    (OpCode.ofNibble n).value = n := by
  have : n = 0 ∨ n = 1 ∨ n = 2 ∨ n = 8 ∨ n = 9 ∨ n = 10 := by omega
  rcases this with rfl | rfl | rfl | rfl | rfl | rfl <;> rfl

theorem OpCode.value_lt (opCode : OpCode) : opCode.value < 16 := by
  cases opCode <;> decide

/-- `SHORT_MESSAGE_HEADER`, `MEDIUM_MESSAGE_HEADER` and `LONG_MESSAGE_HEADER`. -/
def shortMessageHeader : ℕ := 6

@[inherit_doc shortMessageHeader] def mediumMessageHeader : ℕ := 8

@[inherit_doc shortMessageHeader] def longMessageHeader : ℕ := 14

/-- Byte `i` of a frame. -/
def byteAt (frame : Bytes) (i : ℕ) : UInt8 := frame.getD i 0

/-- `isFin`. -/
def isFin (frame : Bytes) : Bool := byteAt frame 0 &&& 128 != 0

/-- `isMasked`. -/
def isMasked (frame : Bytes) : Bool := byteAt frame 1 &&& 128 != 0

/-- `getOpCode`. -/
def getOpCode (frame : Bytes) : ℕ := (byteAt frame 0 &&& 15).toNat

/-- `payloadLength`: the seven-bit length marker. -/
def payloadLength (frame : Bytes) : ℕ := (byteAt frame 1 &&& 127).toNat

/-- `rsv23`. -/
def rsv23 (frame : Bytes) : Bool := byteAt frame 0 &&& 48 != 0

/-- `rsv1`. -/
def rsv1 (frame : Bytes) : Bool := byteAt frame 0 &&& 64 != 0

/-- The big-endian value of a byte sequence. -/
def bigEndian (bytes : Bytes) : ℕ := bytes.foldl (fun value b => 256 * value + b.toNat) 0

/-- `readUint16BE(&src[offset])`. -/
def readUint16BE (src : Bytes) (offset : ℕ) : ℕ := bigEndian ((src.drop offset).take 2)

/-- `readUint64BE(&src[offset])`. -/
def readUint64BE (src : Bytes) (offset : ℕ) : ℕ := bigEndian ((src.drop offset).take 8)

/-- The four masking bytes at `offset`. -/
def readMask (src : Bytes) (offset : ℕ) : Mask :=
  #v[byteAt src offset, byteAt src (offset + 1), byteAt src (offset + 2), byteAt src (offset + 3)]

/-- The header length that a length marker announces. -/
def headerLengthOf (marker : ℕ) : ℕ :=
  if marker < 126 then shortMessageHeader
  else if marker = 126 then mediumMessageHeader
  else longMessageHeader

/-- The payload length that a complete header announces. -/
def announcedLength (frame : Bytes) : ℕ :=
  if payloadLength frame < 126 then payloadLength frame
  else if payloadLength frame = 126 then readUint16BE frame 2
  else readUint64BE frame 2

theorem payloadLength_lt (frame : Bytes) : payloadLength frame < 128 := by
  have h : ∀ b : UInt8, (b &&& 127).toNat < 128 := by decide +kernel
  exact h _

theorem headerLengthOf_cases (marker : ℕ) :
    headerLengthOf marker = 6 ∨ headerLengthOf marker = 8 ∨ headerLengthOf marker = 14 := by
  unfold headerLengthOf shortMessageHeader mediumMessageHeader longMessageHeader
  split_ifs <;> simp

private theorem bigEndian_append_singleton (bytes : Bytes) (b : UInt8) :
    bigEndian (bytes ++ [b]) = 256 * bigEndian bytes + b.toNat := by
  simp [bigEndian]

/-- A big-endian value fits its bytes. -/
theorem bigEndian_lt (bytes : Bytes) : bigEndian bytes < 256 ^ bytes.length := by
  induction bytes using List.reverseRecOn with
  | nil => simp [bigEndian]
  | append_singleton bytes b ih =>
    have hb := b.toNat_lt
    rw [bigEndian_append_singleton, List.length_append, List.length_singleton, pow_succ]
    omega

/-- The `count` big-endian bytes of a value. -/
def bigEndianBytes : ℕ → ℕ → Bytes
  | 0, _ => []
  | count + 1, value => bigEndianBytes count (value / 256) ++ [UInt8.ofNat (value % 256)]

@[simp] theorem bigEndianBytes_length (count value : ℕ) :
    (bigEndianBytes count value).length = count := by
  induction count generalizing value with
  | zero => rfl
  | succ count ih => simp [bigEndianBytes, ih]

/-- Reading back the bytes of a value that fits. -/
theorem bigEndian_bigEndianBytes {count value : ℕ} (h : value < 256 ^ count) :
    bigEndian (bigEndianBytes count value) = value := by
  induction count generalizing value with
  | zero => simp at h; simp [h, bigEndianBytes, bigEndian]
  | succ count ih =>
    have hdiv : value / 256 < 256 ^ count := by
      rw [pow_succ] at h
      omega
    have hbyte : (UInt8.ofNat (value % 256)).toNat = value % 256 := by
      simp [UInt8.toNat_ofNat']
    rw [bigEndianBytes, bigEndian_append_singleton, ih hdiv, hbyte]
    omega

/-- Big-endian bytes by shifts. -/
theorem bigEndianBytes_shift (count value : ℕ) :
    bigEndianBytes count value =
      (List.range count).map fun index => UInt8.ofNat (value >>> ((count - 1 - index) * 8)) := by
  induction count generalizing value with
  | zero => rfl
  | succ count ih =>
    have hlast : UInt8.ofNat (value % 256) = UInt8.ofNat (value >>> ((count - count) * 8)) := by
      rw [Nat.sub_self, Nat.zero_mul, Nat.shiftRight_zero]
      exact UInt8.ofNat_mod_size
    rw [bigEndianBytes, List.range_succ, List.map_append, ih, Nat.add_sub_cancel, hlast]
    congr 1
    apply List.map_congr_left
    intro index hindex
    have hlt : index < count := List.mem_range.mp hindex
    have hshift : (count - index) * 8 = 8 + (count - 1 - index) * 8 := by omega
    rw [hshift, Nat.shiftRight_add, Nat.shiftRight_eq_div_pow value 8]

/-- The fields of a frame header, with the payload length already decoded. -/
structure FrameHeader where
  /-- The FIN bit. -/
  fin : Bool
  /-- The RSV1 bit, which marks a compressed message. -/
  rsv1 : Bool
  /-- Whether RSV2 or RSV3 is set. -/
  rsv23 : Bool
  /-- The opcode nibble. -/
  nibble : ℕ
  /-- The MASK bit. -/
  masked : Bool
  /-- The seven-bit length marker. -/
  marker : ℕ
  /-- The announced payload length. -/
  length : ℕ
  /-- The masking key. -/
  key : Mask
  deriving DecidableEq

/-- The number of header bytes, including the masking key. -/
def FrameHeader.size (h : FrameHeader) : ℕ := headerLengthOf h.marker

/-- The opcode of a valid header. -/
def FrameHeader.opCode (h : FrameHeader) : OpCode := OpCode.ofNibble h.nibble

/-- Decode a header once all of its bytes are available. -/
def parseHeader (src : Bytes) : Option FrameHeader :=
  if src.length < shortMessageHeader then none
  else if src.length < headerLengthOf (payloadLength src) then none
  else some {
    fin := isFin src
    rsv1 := rsv1 src
    rsv23 := rsv23 src
    nibble := getOpCode src
    masked := isMasked src
    marker := payloadLength src
    length := announcedLength src
    key := readMask src (headerLengthOf (payloadLength src) - 4) }

end Eiows
