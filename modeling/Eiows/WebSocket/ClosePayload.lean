import Eiows.WebSocket.WebSocket

/-!
# Close payloads

A close payload is checked by `WebSocket.close`, formatted with a cut at 123
bytes, and parsed with 1005 and 1006 as sentinels. What one of them accepts, the
others keep.
-/

namespace Eiows

variable {Z : Zlib}

theorem isValidCloseCode_eq (code : ℕ) : isValidCloseCode code = validCloseCode code := by
  rw [Bool.eq_iff_iff]
  simp [isValidCloseCode, validCloseCode]

/-- An accepted code is not a sentinel and fits two bytes. -/
theorem validCloseCode_range {code : ℕ} (h : validCloseCode code = true) :
    code ≠ 0 ∧ code ≠ 1005 ∧ code ≠ 1006 ∧ code < 256 ^ 2 := by
  simp only [validCloseCode, Bool.or_eq_true, Bool.and_eq_true, decide_eq_true_eq,
    bne_iff_ne] at h
  omega

/-- `formatClosePayload` writes an accepted code and a well-formed reason out. -/
theorem formatClosePayload_of_valid {code : ℕ} {reason : Bytes}
    (hcode : validCloseCode code = true) (hreason : isValidUtf8 reason = true) :
    formatClosePayload code reason = bigEndianBytes 2 code ++ reason := by
  obtain ⟨hzero, hmissing, hinvalid, -⟩ := validCloseCode_range hcode
  rw [formatClosePayload, if_pos ⟨hzero, hmissing, hinvalid⟩]
  split
  · rfl
  · next hempty =>
    have hnil : reason = [] := by simpa [hreason] using hempty
    rw [hnil, List.append_nil]

theorem readUint16BE_append {code : ℕ} (hcode : code < 256 ^ 2) (reason : Bytes) :
    readUint16BE (bigEndianBytes 2 code ++ reason) 0 = code := by
  rw [readUint16BE, List.drop_zero, List.take_left' (bigEndianBytes_length 2 code),
    bigEndian_bigEndianBytes hcode]

/-- Formatted payloads are read back. -/
theorem parseClosePayload_append {code : ℕ} {reason : Bytes}
    (hcode : validCloseCode code = true) (hreason : isValidUtf8 reason = true) :
    parseClosePayload (bigEndianBytes 2 code ++ reason) = ⟨code, reason⟩ := by
  have hread := readUint16BE_append (validCloseCode_range hcode).2.2.2 reason
  have hdrop : (bigEndianBytes 2 code ++ reason).drop 2 = reason :=
    List.drop_left' (bigEndianBytes_length 2 code)
  have hlength : (bigEndianBytes 2 code ++ reason).length = 2 + reason.length := by
    rw [List.length_append, bigEndianBytes_length]
  rw [parseClosePayload, if_neg (by omega), if_pos (by omega), hread, hdrop,
    if_neg (by simp [hcode, hreason])]

/-- Two bytes are the big-endian form of their value. -/
theorem bigEndianBytes_readUint16BE {src : Bytes} (h : 2 ≤ src.length) :
    bigEndianBytes 2 (readUint16BE src 0) = src.take 2 := by
  match src, h with
  | a :: b :: rest, _ =>
    have ha := a.toNat_lt
    have hb := b.toNat_lt
    have hhigh : (256 * a.toNat + b.toNat) / 256 = a.toNat := by omega
    have hlow : (256 * a.toNat + b.toNat) % 256 = b.toNat := by omega
    simp [readUint16BE, bigEndian, bigEndianBytes, hhigh, hlow, Nat.mod_eq_of_lt ha]

/-- A payload that `parseClosePayload` accepts is formatted as it came. -/
theorem formatClosePayload_parseClosePayload {payload : Bytes} (hlength : payload.length ≤ 125)
    (hcode : (parseClosePayload payload).code ≠ 1006) :
    formatClosePayload (parseClosePayload payload).code
      ((parseClosePayload payload).message.take 123) = payload := by
  rcases parseClosePayload_code payload with
    ⟨hinvalid, -⟩ | ⟨hmissing, hempty⟩ | ⟨htwo, hvalid, hutf8, hparse⟩
  · exact absurd hinvalid hcode
  · rw [hmissing, hempty]
    rfl
  · have hreason : (payload.drop 2).take 123 = payload.drop 2 := by
      apply List.take_of_length_le
      rw [List.length_drop]
      omega
    rw [hparse, hreason, formatClosePayload_of_valid hvalid hutf8, bigEndianBytes_readUint16BE htwo,
      List.take_append_drop]

theorem formatFrame_close {payload : Bytes} (h : payload.length ≤ 125) :
    formatFrame payload .close false = 0x88 :: UInt8.ofNat payload.length :: payload :=
  formatFrame_short .close h

/-- The close payload that a control frame ending with `data` has brought. -/
def Session.closePayload (s : Session Z) (data : Bytes) : Bytes :=
  s.fragmentBuffer.drop (s.fragmentBuffer.length - s.controlTipLength) ++ data

/-- The verdict on a Close frame does not depend on how its parts were kept. -/
theorem Session.completeClose_events (s : Session Z) (payload fragmentBuffer : Bytes)
    (controlTipLength : ℕ) :
    ({ s with fragmentBuffer, controlTipLength }.completeClose payload).events =
      (s.completeClose payload).events := by
  unfold completeClose failWith fail
  simp only
  split_ifs <;> rfl

/-- The last part of a Close frame is judged together with the parts before it. -/
theorem Session.handleFragment_close {s : Session Z} {data : Bytes} (hopen : s.closing = false)
    (htip : s.controlTipLength ≤ s.fragmentBuffer.length)
    (hlength : (s.closePayload data).length ≤ 125) :
    (s.handleFragment data 0 .close true).2.events =
      (s.completeClose (s.closePayload data)).events := by
  have hsum : s.controlTipLength + data.length ≤ 125 := by
    simp only [Session.closePayload, List.length_append, List.length_drop] at hlength
    omega
  rw [handleFragment, if_neg (by simp [hopen]), if_neg (by simp), if_neg (by decide), handleControl]
  split
  · next hwhole =>
    have hpayload : s.closePayload data = data := by
      rw [closePayload, hwhole.2.2, Nat.sub_zero, List.drop_length, List.nil_append]
    rw [if_pos rfl, hpayload]
  · have hcount : (s.controlTipLength + data.length % 256) % 256 =
        s.controlTipLength + data.length := by omega
    have hbuffer : (s.fragmentBuffer ++ data).drop ((s.fragmentBuffer ++ data).length -
        (s.controlTipLength + data.length)) = s.closePayload data := by
      rw [List.length_append, Nat.add_sub_add_right, List.drop_append_of_le_length (by omega)]
      rfl
    simp only [hcount, hbuffer, and_self, if_true]
    exact s.completeClose_events (s.closePayload data) _ _

/-- The answer to a Close frame, when none has been sent before. -/
theorem Session.completeClose_answers {s : Session Z} {payload : Bytes}
    (hopen : s.closing = false) (hsent : s.closeSent = false) (hlength : payload.length ≤ 125) :
    ((parseClosePayload payload).code ≠ 1006 → (s.completeClose payload).events = s.events ++
      [.frame (0x88 :: UInt8.ofNat payload.length :: payload),
        .close (parseClosePayload payload).code (parseClosePayload payload).message]) ∧
      ((parseClosePayload payload).code = 1006 → (s.completeClose payload).events = s.events ++
        [.frame (0x88 :: 2 :: bigEndianBytes 2 1002), .close 1006 []]) := by
  constructor
  · intro hcode
    simp only [completeClose, if_neg hcode, hsent, Bool.false_eq_true, if_false, formatClose,
      formatClosePayload_parseClosePayload hlength hcode, formatFrame_close hlength, emitFrame,
      emitClose, List.append_assoc, List.singleton_append]
  · intro hcode
    have hformat : formatClose 1002 [] = 0x88 :: 2 :: bigEndianBytes 2 1002 := rfl
    simp only [completeClose, if_pos hcode, failWith, fail, hopen, hsent, Bool.false_eq_true,
      if_false, hformat, emitFrame, emitClose, List.append_assoc, List.singleton_append]

/-- A local close writes its code and reason. -/
theorem StreamWebSocket.createCloseFrame_parses {ws : StreamWebSocket Z} {code : Option ℕ}
    {reason : Bytes} (hopen : ws.session.closing = false) (hsent : ws.session.closeSent = false)
    (hcode : ∀ c, code = some c → isValidCloseCode c = true) (hnone : code = none → reason = [])
    (hlength : reason.length ≤ 123) (hutf8 : WellFormedUtf8 reason) :
    ∃ payload, (ws.createCloseFrame (code.getD 0) reason).1 =
      some (0x88 :: UInt8.ofNat payload.length :: payload) ∧ payload.length ≤ 125 ∧
        parseClosePayload payload = ⟨code.getD 1005, reason⟩ := by
  rw [createCloseFrame, if_neg (by simp [hopen, hsent]), formatClose, List.take_of_length_le hlength]
  cases code with
  | none =>
    rw [hnone rfl]
    exact ⟨[], rfl, by decide, rfl⟩
  | some c =>
    have hvalid : validCloseCode c = true := isValidCloseCode_eq c ▸ hcode c rfl
    have hreason := (isValidUtf8_iff reason).mpr hutf8
    have hwritten : (bigEndianBytes 2 c ++ reason).length ≤ 125 := by
      rw [List.length_append, bigEndianBytes_length]
      omega
    rw [Option.getD_some, Option.getD_some, formatClosePayload_of_valid hvalid hreason,
      formatFrame_close hwritten]
    exact ⟨_, rfl, hwritten, parseClosePayload_append hvalid hreason⟩

/-- The sentinel 1006 has no reason. -/
theorem parseClosePayload_rejected {payload reason : Bytes}
    (h : parseClosePayload payload = ⟨1006, reason⟩) : reason = [] := by
  rcases parseClosePayload_code payload with
    ⟨-, hmessage⟩ | ⟨hmissing, -⟩ | ⟨-, hvalid, -, hparse⟩
  · rwa [h] at hmessage
  · rw [h] at hmissing
    cases hmissing
  · rw [hparse] at h
    obtain ⟨hcode, -⟩ := CloseFrame.mk.inj h
    rw [hcode] at hvalid
    cases hvalid

/-- The codes that `parseClosePayload` reads are those that `WebSocket.close`
accepts. -/
theorem isValidCloseCode_iff (code : ℕ) : isValidCloseCode code = true ↔
    code ≠ 1006 ∧ ∃ payload, payload ≠ [] ∧ (parseClosePayload payload).code = code := by
  rw [isValidCloseCode_eq]
  constructor
  · intro hcode
    have hempty : isValidUtf8 [] = true := (isValidUtf8_iff []).mpr .nil
    refine ⟨(validCloseCode_range hcode).2.2.1, bigEndianBytes 2 code ++ [], ?_, ?_⟩
    · exact List.ne_nil_of_length_pos (by simp)
    · rw [parseClosePayload_append hcode hempty]
  · rintro ⟨hcode, payload, hne, rfl⟩
    rcases parseClosePayload_code payload with
      ⟨hinvalid, -⟩ | ⟨-, hempty⟩ | ⟨-, hvalid, -, hparse⟩
    · exact absurd hinvalid hcode
    · exact absurd hempty hne
    · rwa [hparse]

/-- Close payloads survive both directions: what `close` accepts is written in
at most 125 bytes and read back, what a peer sends is echoed as it came, and an
invalid payload is answered with 1002. -/
theorem closePayload_roundTrip (Z : Zlib) :
    (∀ code, isValidCloseCode code = true ↔
      code ≠ 1006 ∧ ∃ payload, payload ≠ [] ∧ (parseClosePayload payload).code = code) ∧
    (∀ (ws : StreamWebSocket Z) (code : Option ℕ) (reason : Bytes),
      ws.session.closing = false → ws.session.closeSent = false →
      (∀ c, code = some c → isValidCloseCode c = true) → (code = none → reason = []) →
      reason.length ≤ 123 → WellFormedUtf8 reason →
      ∃ payload, (ws.createCloseFrame (code.getD 0) reason).1 =
        some (0x88 :: UInt8.ofNat payload.length :: payload) ∧ payload.length ≤ 125 ∧
          parseClosePayload payload = ⟨code.getD 1005, reason⟩) ∧
    ∀ (s : Session Z) (data : Bytes), s.closing = false → s.closeSent = false →
      s.controlTipLength ≤ s.fragmentBuffer.length → (s.closePayload data).length ≤ 125 →
      ∀ payload, payload = s.closePayload data → ∀ code reason,
        parseClosePayload payload = ⟨code, reason⟩ →
        (s.handleFragment data 0 .close true).2.events = s.events ++
          [.frame (if code = 1006 then 0x88 :: 2 :: bigEndianBytes 2 1002
            else 0x88 :: UInt8.ofNat payload.length :: payload), .close code reason] := by
  refine ⟨isValidCloseCode_iff, fun ws code reason => StreamWebSocket.createCloseFrame_parses, ?_⟩
  rintro s data hopen hsent htip hlength payload rfl code reason hparse
  obtain ⟨hechoed, hrefused⟩ := Session.completeClose_answers hopen hsent hlength
  rw [hparse] at hechoed hrefused
  rw [Session.handleFragment_close hopen htip hlength]
  split
  · next hcode =>
    subst hcode
    rw [parseClosePayload_rejected hparse]
    exact hrefused rfl
  · next hcode => exact hechoed hcode

end Eiows
