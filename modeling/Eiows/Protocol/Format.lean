import Eiows.Protocol.Frame
import Eiows.Protocol.Utf8

/-!
# Outgoing frames and close payloads

The server's frames are not masked. A close payload is a code followed by a
reason; `parseClosePayload` uses the codes 1005 and 1006 for a missing and an
invalid payload.
-/

namespace Eiows

/-- `formatMessageHeader`. -/
def formatMessageHeader (opCode : OpCode) (reportedLength : ℕ) (compressed : Bool) : Bytes :=
  UInt8.ofNat (128 + (if compressed then 64 else 0) + opCode.value) ::
    (if reportedLength < 126 then [UInt8.ofNat reportedLength]
      else if reportedLength ≤ 65535 then 126 :: bigEndianBytes 2 reportedLength
      else 127 :: bigEndianBytes 8 reportedLength)

/-- `formatMessage`, with the payload as its reported length. -/
def formatMessage (src : Bytes) (opCode : OpCode) (compressed : Bool) : Bytes :=
  formatMessageHeader opCode src.length compressed ++ src

/-- `StreamWebSocket::formatFrame`. -/
def formatFrame (data : Bytes) (opCode : OpCode) (compressed : Bool) : Bytes :=
  formatMessage data opCode compressed

/-- A short uncompressed frame has a header of two bytes. -/
theorem formatFrame_short {data : Bytes} (opCode : OpCode) (h : data.length ≤ 125) :
    formatFrame data opCode false =
      UInt8.ofNat (128 + opCode.value) :: UInt8.ofNat data.length :: data := by
  have hlt : data.length < 126 := by omega
  simp [formatFrame, formatMessage, formatMessageHeader, hlt]

/-- `CloseFrame`. -/
structure CloseFrame where
  code : ℕ
  message : Bytes
  deriving DecidableEq

/-- The codes that `parseClosePayload` accepts from a peer. -/
def validCloseCode (code : ℕ) : Bool :=
  (1000 ≤ code && code ≤ 1014 && code != 1004 && code != 1005 && code != 1006) ||
    (3000 ≤ code && code ≤ 4999)

/-- `parseClosePayload`. -/
def parseClosePayload (src : Bytes) : CloseFrame :=
  if src.length = 1 then ⟨1006, []⟩
  else if 2 ≤ src.length then
    if !validCloseCode (readUint16BE src 0) || !isValidUtf8 (src.drop 2) then ⟨1006, []⟩
    else ⟨readUint16BE src 0, src.drop 2⟩
  else ⟨1005, []⟩

/-- `formatClosePayload`: the sentinel codes have no payload, and a reason that
is not UTF-8 is left out. -/
def formatClosePayload (code : ℕ) (message : Bytes) : Bytes :=
  if code ≠ 0 ∧ code ≠ 1005 ∧ code ≠ 1006 then
    if message ≠ [] ∧ isValidUtf8 message then bigEndianBytes 2 code ++ message
    else bigEndianBytes 2 code
  else []

/-- `StreamWebSocket::formatClose`: the reason is cut at `MAX_CLOSE_REASON`. -/
def formatClose (code : ℕ) (message : Bytes) : Bytes :=
  formatFrame (formatClosePayload code (message.take 123)) .close false

/-- The sentinel 1006 is never the code of a valid payload. -/
theorem parseClosePayload_code (src : Bytes) :
    (parseClosePayload src).code = 1006 ∧ (parseClosePayload src).message = [] ∨
      (parseClosePayload src).code = 1005 ∧ src = [] ∨
      2 ≤ src.length ∧ validCloseCode (readUint16BE src 0) = true ∧
        isValidUtf8 (src.drop 2) = true ∧
        parseClosePayload src = ⟨readUint16BE src 0, src.drop 2⟩ := by
  unfold parseClosePayload
  split_ifs with hone htwo hvalid
  · exact .inl ⟨rfl, rfl⟩
  · exact .inl ⟨rfl, rfl⟩
  · simp only [Bool.or_eq_true, Bool.not_eq_true', not_or, Bool.not_eq_false] at hvalid
    exact .inr (.inr ⟨htwo, hvalid.1, hvalid.2, rfl⟩)
  · exact .inr (.inl ⟨rfl, List.length_eq_zero_iff.mp (by omega)⟩)

end Eiows
