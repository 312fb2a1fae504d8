import Eiows.Protocol.Format

/-!
# Write requests

A write request holds the bytes of one submission in parts, and a cursor that
moves over them as they are written. The parts may be rewritten before the first
write. Neither changes which bytes are still to be written, or their order.
-/

namespace Eiows

/-- The callback of a call of `send` or `sendFrame`. -/
abbrev WriteCallback := ℕ

/-- `WriteRequest`. The serial number stands for the address of the request. The
callback is a value until the request is deferred, and a reference afterwards. -/
structure WriteRequest where
  serial : ℕ := 0
  parts : List Bytes := []
  bytes : ℕ := 0
  sent : ℕ := 0
  cursorPart : ℕ := 0
  cursorOffset : ℕ := 0
  callback : Option WriteCallback := none
  deferred : Bool := false
  deriving DecidableEq

/-- `SIZE_MAX`. -/
def sizeMax : ℕ := 2 ^ 64 - 1

/-- `WriteRequest::INLINE_BYTES`. -/
def INLINE_BYTES : ℕ := 1024 + 14

/-- `frameHeader`. -/
def frameHeader (payloadLength : ℕ) (opCode : OpCode) : Bytes :=
  let first := UInt8.ofNat (0x80 + opCode.value)
  if payloadLength < 126 then [first, UInt8.ofNat payloadLength]
  else if payloadLength ≤ 0xffff then first :: 126 :: bigEndianBytes 2 payloadLength
  else first :: 127 :: bigEndianBytes 8 payloadLength

/-- The number of empty parts at the front. -/
def emptyParts (parts : List Bytes) : ℕ := (parts.takeWhile List.isEmpty).length

/-- Move over a number of bytes from an offset into the first part, and over the
empty parts behind them. The result is the number of parts left behind, and the
offset into the next one. -/
def moveOver : List Bytes → ℕ → ℕ → ℕ × ℕ
  | [], offset, _ => (0, offset)
  | current :: rest, offset, length =>
    if length = 0 then (emptyParts (current :: rest), offset)
    else if length < current.length - offset then (0, offset + length)
    else
      let moved := moveOver rest 0 (length - (current.length - offset))
      (moved.1 + 1, moved.2)

/-- Leave out a number of bytes, and the parts that they fill. -/
def dropPrefix : ℕ → List Bytes → List Bytes
  | _, [] => []
  | consume, current :: rest =>
    if current.length ≤ consume then dropPrefix (consume - current.length) rest
    else current.drop consume :: dropPrefix 0 rest

namespace WriteRequest

/-- All bytes of the request. -/
def content (r : WriteRequest) : Bytes := r.parts.flatten

/-- The bytes behind the cursor. -/
def remaining (r : WriteRequest) : Bytes :=
  (r.parts.drop r.cursorPart).flatten.drop r.cursorOffset

/-- `addOwned`, `addInput` and `addTextInput`: one more part. -/
def addPart (data : Bytes) (r : WriteRequest) : WriteRequest := { r with parts := r.parts ++ [data] }

/-- `prependOwned`. -/
def prependOwned (data : Bytes) (r : WriteRequest) : WriteRequest :=
  { r with parts := data :: r.parts }

/-- `addSmallTextFrame`: the whole frame where it fits into the request itself,
and the payload otherwise. The flag says which. -/
def addSmallTextFrame (payload : Bytes) (opCode : OpCode) (r : WriteRequest) :
    WriteRequest × Bool :=
  let headerLength := if payload.length < 126 then 2 else if payload.length ≤ 0xffff then 4 else 10
  if INLINE_BYTES - headerLength < payload.length then (r.addPart payload, false)
  else (r.addPart (frameHeader payload.length opCode ++ payload), true)

/-- `prepare`: count the bytes, and set the cursor. `none` where the source returns
`false`, for too many bytes or for no parts. -/
def prepare (r : WriteRequest) : Option WriteRequest :=
  if sizeMax < r.content.length ∨ r.parts = [] then none
  else some { r with
    bytes := r.content.length
    cursorPart := emptyParts r.parts
    cursorOffset := 0 }

/-- `flatten`: one part in place of many. -/
def flatten (r : WriteRequest) : Option WriteRequest :=
  if r.parts.length ≤ 1 then some r else { r with parts := [r.content] }.prepare

/-- `coalescePrefix`: one part for the first bytes. -/
def coalescePrefix (prefixLength : ℕ) (r : WriteRequest) : Option WriteRequest :=
  if r.parts.length ≤ 1 ∨ r.bytes ≤ prefixLength then r.flatten
  else { r with
    parts := r.content.take prefixLength :: dropPrefix prefixLength r.parts }.prepare

/-- `remainingIovecs`, for at most `limit` vectors. -/
def remainingIovecs (limit : ℕ) (r : WriteRequest) : List Bytes :=
  match (r.parts.drop r.cursorPart).take limit with
  | [] => []
  | current :: rest => current.drop r.cursorOffset :: rest

/-- `remainingData`, up to the end of the part. -/
def remainingData (r : WriteRequest) : Bytes :=
  (r.parts.getD r.cursorPart []).drop r.cursorOffset

/-- `remainingBytes`. -/
def remainingBytes (r : WriteRequest) : ℕ := r.bytes - r.sent

/-- `advanceCursor`. -/
def advanceCursor (length : ℕ) (r : WriteRequest) : WriteRequest :=
  let moved := moveOver (r.parts.drop r.cursorPart) r.cursorOffset length
  { r with cursorPart := r.cursorPart + moved.1, cursorOffset := moved.2 }

/-- `advance`. -/
def advance (length : ℕ) (r : WriteRequest) : WriteRequest :=
  { r with sent := r.sent + length }.advanceCursor length

/-- `stageTLS`. -/
def stageTLS (length : ℕ) (r : WriteRequest) : WriteRequest := r.advanceCursor length

/-- `commitTLS`. -/
def commitTLS (length : ℕ) (r : WriteRequest) : WriteRequest := { r with sent := r.sent + length }

/-- `unstagedBytes`. -/
def unstagedBytes (staged : ℕ) (r : WriteRequest) : ℕ := r.bytes - r.sent - staged

/-- `defer`. -/
def defer (r : WriteRequest) : WriteRequest := { r with deferred := true }

/-- The cursor lies on a byte, or behind the last one. -/
def CursorValid (r : WriteRequest) : Prop :=
  match r.parts.drop r.cursorPart with
  | [] => r.cursorOffset = 0
  | current :: _ => r.cursorOffset < current.length

/-- The request is counted, and its cursor lies behind the given number of bytes. -/
structure At (r : WriteRequest) (offset : ℕ) : Prop where
  cursor : r.CursorValid
  remaining : r.remaining = r.content.drop offset
  offset_le : offset ≤ r.content.length
  bytes : r.bytes = r.content.length

end WriteRequest

private theorem flatten_drop_emptyParts (parts : List Bytes) :
    (parts.drop (emptyParts parts)).flatten = parts.flatten ∧
      ∀ current rest, parts.drop (emptyParts parts) = current :: rest → 0 < current.length := by
  unfold emptyParts
  induction parts with
  | nil => simp
  | cons current rest ih =>
    by_cases hempty : current.isEmpty = true
    · rw [List.takeWhile_cons_of_pos hempty, List.length_cons, List.drop_succ_cons]
      refine ⟨?_, ih.2⟩
      rw [ih.1, List.flatten_cons, List.isEmpty_iff.mp hempty, List.nil_append]
    · rw [List.takeWhile_cons_of_neg hempty]
      refine ⟨rfl, fun first others h => ?_⟩
      cases h
      exact List.length_pos_iff.mpr fun h => hempty (by rw [h]; rfl)

/-- Moving over bytes leaves out exactly these. -/
private theorem moveOver_spec {parts : List Bytes} {offset length : ℕ}
    (hoffset : offset ≠ 0 → ∃ current rest, parts = current :: rest ∧ offset < current.length)
    (hlength : length ≤ (parts.flatten.drop offset).length) :
    (parts.drop (moveOver parts offset length).1).flatten.drop (moveOver parts offset length).2 =
        (parts.flatten.drop offset).drop length ∧
      (match parts.drop (moveOver parts offset length).1 with
        | [] => (moveOver parts offset length).2 = 0
        | current :: _ => (moveOver parts offset length).2 < current.length) := by
  induction parts generalizing offset length with
  | nil =>
    have hzero : offset = 0 := by
      by_contra h
      obtain ⟨_, _, hnil, _⟩ := hoffset h
      cases hnil
    simp [moveOver, hzero]
  | cons current rest ih =>
    have hle : offset ≤ current.length := by
      by_cases h : offset = 0
      · omega
      · obtain ⟨_, _, hcons, hlt⟩ := hoffset h
        cases hcons
        exact hlt.le
    by_cases hnone : length = 0
    · rw [moveOver, if_pos hnone, hnone, List.drop_zero]
      by_cases hstart : offset = 0
      · obtain ⟨hflatten, hpos⟩ := flatten_drop_emptyParts (current :: rest)
        rw [hstart, List.drop_zero, hflatten, List.drop_zero]
        refine ⟨rfl, ?_⟩
        cases hdrop : (current :: rest).drop (emptyParts (current :: rest)) with
        | nil => rfl
        | cons first others => exact hpos first others hdrop
      · obtain ⟨_, _, hcons, hlt⟩ := hoffset hstart
        cases hcons
        have hnonempty : emptyParts (current :: rest) = 0 := by
          unfold emptyParts
          rw [List.takeWhile_cons_of_neg, List.length_nil]
          intro hempty
          rw [List.isEmpty_iff.mp hempty] at hlt
          exact absurd hlt (Nat.not_lt_zero _)
        rw [hnonempty, List.drop_zero]
        exact ⟨rfl, hlt⟩
    rw [moveOver, if_neg hnone]
    by_cases hinside : length < current.length - offset
    · rw [if_pos hinside]
      exact ⟨by rw [List.drop_zero, List.drop_drop], by rw [List.drop_zero]; simp only; omega⟩
    · rw [if_neg hinside]
      have hrest : (current :: rest).flatten.drop offset =
          current.drop offset ++ rest.flatten := by
        rw [List.flatten_cons, List.drop_append_of_le_length hle]
      have hfew : length - (current.length - offset) ≤ (rest.flatten.drop 0).length := by
        rw [hrest, List.length_append, List.length_drop] at hlength
        rw [List.drop_zero]
        omega
      obtain ⟨hbytes, hvalid⟩ := ih (fun h => absurd rfl h) hfew
      simp only [List.drop_succ_cons]
      refine ⟨?_, hvalid⟩
      have hdrop : (current.drop offset).drop length = [] :=
        List.drop_eq_nil_of_le (by rw [List.length_drop]; omega)
      rw [hbytes, List.drop_zero, hrest, List.drop_append, hdrop, List.nil_append,
        List.length_drop]

/-- Leaving out bytes leaves the others. -/
theorem flatten_dropPrefix (consume : ℕ) (parts : List Bytes) :
    (dropPrefix consume parts).flatten = parts.flatten.drop consume := by
  induction parts generalizing consume with
  | nil => simp [dropPrefix]
  | cons current rest ih =>
    rw [dropPrefix, List.flatten_cons, List.drop_append]
    split_ifs with hle
    · rw [ih, List.drop_eq_nil_of_le hle, List.nil_append]
    · rw [List.flatten_cons, ih, List.drop_zero, Nat.sub_eq_zero_of_le (by omega), List.drop_zero]

namespace WriteRequest

variable {r r' : WriteRequest} {offset length : ℕ}

/-- A prepared request is at its start, with the same bytes. -/
theorem prepare_spec (h : r.prepare = some r') :
    r'.At 0 ∧ r'.content = r.content ∧ r' = { r with
      bytes := r'.bytes, cursorPart := r'.cursorPart, cursorOffset := r'.cursorOffset } := by
  unfold prepare at h
  split_ifs at h
  cases h
  obtain ⟨hflatten, hpos⟩ := flatten_drop_emptyParts r.parts
  refine ⟨⟨?_, ?_, Nat.zero_le _, rfl⟩, rfl, rfl⟩
  · simp only [CursorValid]
    cases hdrop : r.parts.drop (emptyParts r.parts) with
    | nil => trivial
    | cons first others => exact hpos first others hdrop
  · simp only [WriteRequest.remaining, content, List.drop_zero, hflatten]

/-- Flattening keeps the bytes of a prepared request. -/
theorem flatten_spec (hr : r.At 0) (h : r.flatten = some r') :
    r'.At 0 ∧ r'.content = r.content ∧ r' = { r with
      parts := r'.parts, bytes := r'.bytes, cursorPart := r'.cursorPart
      cursorOffset := r'.cursorOffset } := by
  unfold flatten at h
  split_ifs at h
  · cases h
    exact ⟨hr, rfl, rfl⟩
  · obtain ⟨hat, hcontent, heq⟩ := prepare_spec h
    refine ⟨hat, by rw [hcontent]; simp [content], ?_⟩
    rw [heq]

/-- Coalescing a prefix keeps the bytes of a prepared request. -/
theorem coalescePrefix_spec {prefixLength : ℕ} (hr : r.At 0)
    (h : r.coalescePrefix prefixLength = some r') :
    r'.At 0 ∧ r'.content = r.content ∧ r' = { r with
      parts := r'.parts, bytes := r'.bytes, cursorPart := r'.cursorPart
      cursorOffset := r'.cursorOffset } := by
  unfold coalescePrefix at h
  split_ifs at h
  · exact flatten_spec hr h
  · obtain ⟨hat, hcontent, heq⟩ := prepare_spec h
    refine ⟨hat, ?_, by rw [heq]⟩
    rw [hcontent]
    simp only [content, List.flatten_cons, flatten_dropPrefix, List.take_append_drop]

/-- The cursor moves by the number of bytes. -/
theorem At.advanceCursor (hr : r.At offset) (length : ℕ) (hlength : offset + length ≤ r.content.length) :
    (r.advanceCursor length).At (offset + length) := by
  have hoffset : r.cursorOffset ≠ 0 → ∃ current rest,
      r.parts.drop r.cursorPart = current :: rest ∧ r.cursorOffset < current.length := by
    intro hne
    have hcursor := hr.cursor
    unfold CursorValid at hcursor
    cases hdrop : r.parts.drop r.cursorPart with
    | nil => rw [hdrop] at hcursor; exact absurd hcursor hne
    | cons current rest => rw [hdrop] at hcursor; exact ⟨current, rest, rfl, hcursor⟩
  have hleft : length ≤ ((r.parts.drop r.cursorPart).flatten.drop r.cursorOffset).length := by
    have hremaining := hr.remaining
    unfold WriteRequest.remaining at hremaining
    rw [hremaining, List.length_drop]
    omega
  obtain ⟨hbytes, hvalid⟩ := moveOver_spec hoffset hleft
  refine ⟨?_, ?_, hlength, hr.bytes⟩
  · simp only [CursorValid, WriteRequest.advanceCursor, ← List.drop_drop]
    exact hvalid
  · have hremaining := hr.remaining
    unfold WriteRequest.remaining at hremaining ⊢
    simp only [WriteRequest.advanceCursor, ← List.drop_drop]
    rw [hbytes, hremaining]
    rfl

@[simp] theorem content_advanceCursor : (r.advanceCursor length).content = r.content := rfl

/-- The vectors offered to the kernel are the next bytes, some of them where any
are left. -/
theorem At.remainingIovecs (hr : r.At offset) {limit : ℕ} (hlimit : 0 < limit) :
    (r.remainingIovecs limit).flatten <+: r.content.drop offset ∧
      (offset < r.content.length → (r.remainingIovecs limit).flatten ≠ []) := by
  rw [← hr.remaining]
  have hcursor := hr.cursor
  have hlength := congrArg List.length hr.remaining
  rw [List.length_drop] at hlength
  unfold CursorValid at hcursor
  unfold WriteRequest.remaining WriteRequest.remainingIovecs at *
  obtain ⟨limit, rfl⟩ : ∃ n, limit = n + 1 := ⟨limit - 1, by omega⟩
  cases hdrop : r.parts.drop r.cursorPart with
  | nil =>
    rw [hdrop] at hlength
    refine ⟨by simp, fun h => ?_⟩
    simp only [List.flatten_nil, List.drop_nil, List.length_nil] at hlength
    omega
  | cons current rest =>
    rw [hdrop] at hcursor
    simp only [List.take_succ_cons, List.flatten_cons,
      List.drop_append_of_le_length hcursor.le] at hcursor ⊢
    refine ⟨(List.prefix_append_right_inj _).mpr ?_, fun _ hnil => ?_⟩
    · conv_rhs => rw [← List.take_append_drop limit rest, List.flatten_append]
      exact List.prefix_append _ _
    · have hfirst := (List.append_eq_nil_iff.mp hnil).1
      have hlong := List.drop_eq_nil_iff.mp hfirst
      omega

/-- The rest of the current part is the next bytes, some of them where any are left. -/
theorem At.remainingData (hr : r.At offset) :
    r.remainingData <+: r.content.drop offset ∧
      (offset < r.content.length → r.remainingData ≠ []) := by
  rw [← hr.remaining]
  have hcursor := hr.cursor
  have hlength := congrArg List.length hr.remaining
  rw [List.length_drop] at hlength
  unfold CursorValid at hcursor
  unfold WriteRequest.remaining WriteRequest.remainingData at *
  rw [List.getD_eq_getElem?_getD, ← Nat.add_zero r.cursorPart, ← List.getElem?_drop]
  cases hdrop : r.parts.drop r.cursorPart with
  | nil =>
    rw [hdrop] at hlength
    refine ⟨by simp, fun h => ?_⟩
    simp only [List.flatten_nil, List.drop_nil, List.length_nil] at hlength
    omega
  | cons current rest =>
    rw [hdrop] at hcursor
    have hlt : r.cursorOffset < current.length := hcursor
    simp only [List.getElem?_cons_zero, Option.getD_some, List.flatten_cons,
      List.drop_append_of_le_length hlt.le]
    refine ⟨List.prefix_append _ _, fun _ hnil => ?_⟩
    have hlong := List.drop_eq_nil_iff.mp hnil
    omega

end WriteRequest

end Eiows
