import Eiows.Transport.InputPart

/-!
# The storage of a write request

`WriteRequest` keeps two parts inline and the others in a vector, and moves them
when it joins bytes for TLS. This file embeds that storage with its pointers. It
shows that every request that the transport submits exposes the bytes that its
parts were given, however it is rewritten and however the cursor moves.
-/

namespace Eiows

open Memory

/-- The storage of `WriteRequest`. The capacity is that of `extraParts`; the
addresses from `nextAddress` on have not been used. -/
structure StoredRequest where
  inlineParts : InputPart × InputPart := ({}, {})
  inlineBytes : Bytes := List.replicate INLINE_BYTES 0
  extraParts : List InputPart := []
  capacity : ℕ := 0
  partCount : ℕ := 0
  bytes : ℕ := 0
  sent : ℕ := 0
  cursorPart : ℕ := 0
  cursorOffset : ℕ := 0
  nextAddress : ℕ := 0
  deriving DecidableEq

/-- Move parts one by one. -/
def relocate (shortCapacity : ℕ) : ℕ → List InputPart → List InputPart
  | _, [] => []
  | address, p :: rest => p.moveTo shortCapacity address :: relocate shortCapacity (address + 1) rest

/-- The header that `addSmallTextFrame` writes in front of the text. -/
def smallTextHeader (headerLength payloadLength : ℕ) (opCode : OpCode) : Bytes :=
  let first := UInt8.ofNat (0x80 ||| opCode.value)
  if headerLength = 2 then [first, UInt8.ofNat payloadLength]
  else if headerLength = 4 then
    [first, 126, UInt8.ofNat ((payloadLength >>> 8) &&& 0xff), UInt8.ofNat (payloadLength &&& 0xff)]
  else
    first :: 127 :: (List.range 8).map fun index =>
      UInt8.ofNat (payloadLength >>> ((7 - index) * 8))

namespace StoredRequest

variable (shortCapacity : ℕ)

/-- `part`. -/
def part (r : StoredRequest) (index : ℕ) : InputPart :=
  if index = 0 then r.inlineParts.1
  else if index = 1 then r.inlineParts.2
  else r.extraParts.getD (index - 2) {}

/-- Assign to `part(index)`. -/
def setPart (index : ℕ) (p : InputPart) (r : StoredRequest) : StoredRequest :=
  if index = 0 then { r with inlineParts := (p, r.inlineParts.2) }
  else if index = 1 then { r with inlineParts := (r.inlineParts.1, p) }
  else { r with extraParts := r.extraParts.set (index - 2) p }

/-- Make room in `extraParts`: a full vector moves its parts. -/
def grow (r : StoredRequest) : StoredRequest :=
  if r.extraParts.length < r.capacity then r
  else { r with
    extraParts := relocate shortCapacity r.nextAddress r.extraParts
    capacity := max 1 (2 * r.capacity)
    nextAddress := r.nextAddress + r.extraParts.length }

/-- `appendPart`, and what the caller then does to the part. -/
def appendPart (fill : InputPart → InputPart) (r : StoredRequest) : StoredRequest :=
  if r.partCount = 0 then
    { r with inlineParts := (fill r.inlineParts.1, r.inlineParts.2), partCount := 1 }
  else if r.partCount = 1 then
    { r with inlineParts := (r.inlineParts.1, fill r.inlineParts.2), partCount := 2 }
  else
    let grown := r.grow shortCapacity
    { grown with extraParts := grown.extraParts ++ [fill {}], partCount := r.partCount + 1 }

/-- Place a string in a part. -/
def fillOwned (data : Bytes) (address : ℕ) (target : InputPart) : InputPart :=
  { target with
    owned := { data := data, address := address }
    pointer := .string address 0
    length := data.length }

/-- `addOwned`. -/
def addOwned (data : Bytes) (r : StoredRequest) : StoredRequest :=
  { r with nextAddress := r.nextAddress + 1 }.appendPart shortCapacity
    (fillOwned data r.nextAddress)

/-- `clearParts`. -/
def clearParts (r : StoredRequest) : StoredRequest :=
  { r with
    inlineParts := ({}, {})
    extraParts := []
    partCount := 0
    cursorPart := 0
    cursorOffset := 0 }

/-- `prependOwned`: `none` where the source aborts. -/
def prependOwned (data : Bytes) (r : StoredRequest) : Option StoredRequest :=
  if r.partCount = 0 then some (r.addOwned shortCapacity data)
  else if r.partCount ≠ 1 then none
  else some { r with
    inlineParts := (fillOwned data (r.nextAddress + 1) {},
      r.inlineParts.1.moveTo shortCapacity r.nextAddress)
    partCount := 2
    nextAddress := r.nextAddress + 2 }

/-- `release`, of one part. -/
def release (index : ℕ) (r : StoredRequest) : StoredRequest := r.setPart index {}

/-- `skipEmptyParts`. -/
def skipEmptyParts (r : StoredRequest) : StoredRequest :=
  if _h : r.cursorPart < r.partCount ∧ (r.part r.cursorPart).length = 0 then
    skipEmptyParts { r.release r.cursorPart with cursorPart := r.cursorPart + 1 }
  else r
  termination_by r.partCount - r.cursorPart
  decreasing_by
    simp only [release, setPart]
    split_ifs <;> simp only <;> omega

/-- One iteration of the loop of `prepare`. -/
def preparePart (r : StoredRequest) (index : ℕ) : Option StoredRequest :=
  let current := (r.part index).repoint
  if sizeMax < r.bytes + current.length then none
  else some { r.setPart index current with bytes := r.bytes + current.length }

/-- `prepare`: `none` where the source returns `false`. -/
def prepare (r : StoredRequest) : Option StoredRequest :=
  match (List.range r.partCount).foldlM preparePart
      { r with bytes := 0, cursorPart := 0, cursorOffset := 0 } with
  | none => none
  | some r => if r.partCount ≠ 0 then some r.skipEmptyParts else none

/-- One iteration of the loop of `flatten` that copies into `inlineBytes`. -/
def copyPartInline (copied : StoredRequest × ℕ) (index : ℕ) : Option (StoredRequest × ℕ) :=
  let (r, offset) := copied
  match (r.part index).view r.inlineBytes with
  | none => none
  | some data =>
    some ({ r with inlineBytes := overwrite r.inlineBytes offset data }, offset + data.length)

/-- Copy all parts into `inlineBytes`. -/
def copyInline (r : StoredRequest) : Option (StoredRequest × ℕ) :=
  (List.range r.partCount).foldlM copyPartInline (r, 0)

/-- Copy all parts into one string. -/
def copyAll (r : StoredRequest) : Option Bytes :=
  (List.range r.partCount).foldlM (fun combined index =>
    ((r.part index).view r.inlineBytes).map (combined ++ ·)) []

/-- `flatten`: `none` where the source returns `false` or reads through a pointer
that dangles. -/
def flatten (r : StoredRequest) : Option StoredRequest :=
  if r.partCount ≤ 1 then some r
  else if r.bytes ≤ INLINE_BYTES then
    match r.copyInline with
    | none => none
    | some (r, offset) =>
      (r.clearParts.appendPart shortCapacity fun target =>
        { target with pointer := .inlineBytes 0, length := offset }).prepare
  else
    match r.copyAll with
    | none => none
    | some combined => (r.clearParts.addOwned shortCapacity combined).prepare

/-- Copy the first bytes of the parts, up to a number of bytes. -/
def copyPrefix (prefixLength : ℕ) (r : StoredRequest) : Option Bytes :=
  (List.range r.partCount).foldlM (fun copied index =>
    let current := r.part index
    (current.pointer.load r.inlineBytes current.owned
      (min current.length (prefixLength - copied.length))).map (copied ++ ·)) []

/-- Append again the parts behind the first bytes. -/
def appendRest : ℕ → List InputPart → StoredRequest → StoredRequest
  | _, [], r => r
  | consume, current :: rest, r =>
    if current.length ≤ consume then appendRest (consume - current.length) rest r
    else
      let current := if consume ≠ 0 then current.skip consume else current
      appendRest 0 rest ({ r with nextAddress := r.nextAddress + 1 }.appendPart shortCapacity
        fun _ => current.moveTo shortCapacity r.nextAddress)

/-- `coalescePrefix`. -/
def coalescePrefix (prefixLength : ℕ) (r : StoredRequest) : Option StoredRequest :=
  if r.partCount ≤ 1 ∨ r.bytes ≤ prefixLength then r.flatten shortCapacity
  else
    match r.copyPrefix prefixLength with
    | none => none
    | some copied =>
      if copied.length ≠ prefixLength then none
      else
        let original := relocate shortCapacity r.nextAddress ((List.range r.partCount).map r.part)
        let emptied := { r.clearParts with nextAddress := r.nextAddress + r.partCount }
        (appendRest shortCapacity prefixLength original
          (emptied.addOwned shortCapacity copied)).prepare

/-- What the vectors of `remainingIovecs` read, for at most `limit` vectors. -/
def remainingIovecs (limit : ℕ) (r : StoredRequest) : List (Option Bytes) :=
  (List.range (min (r.partCount - r.cursorPart) limit)).map fun output =>
    let current := r.part (r.cursorPart + output)
    let offset := if output = 0 then r.cursorOffset else 0
    (current.pointer.add offset).load r.inlineBytes current.owned (current.length - offset)

/-- `remainingPartBytes`. -/
def remainingPartBytes (r : StoredRequest) : ℕ := (r.part r.cursorPart).length - r.cursorOffset

/-- What `remainingData` reads, up to the end of the part. -/
def remainingData (r : StoredRequest) : Option Bytes :=
  let current := r.part r.cursorPart
  (current.pointer.add r.cursorOffset).load r.inlineBytes current.owned r.remainingPartBytes

/-- `advanceCursor`. -/
def advanceCursor (length : ℕ) (r : StoredRequest) : StoredRequest :=
  if _h : length ≠ 0 ∧ r.cursorPart < r.partCount then
    let available := (r.part r.cursorPart).length - r.cursorOffset
    if length < available then { r with cursorOffset := r.cursorOffset + length }
    else
      advanceCursor (length - available)
        { r.release r.cursorPart with cursorPart := r.cursorPart + 1, cursorOffset := 0 }
  else r.skipEmptyParts
  termination_by r.partCount - r.cursorPart
  decreasing_by
    simp only [release, setPart]
    split_ifs <;> simp only <;> omega

/-- `advance`. -/
def advance (length : ℕ) (r : StoredRequest) : StoredRequest :=
  { r with sent := r.sent + length }.advanceCursor length

/-- `stageTLS`. -/
def stageTLS (length : ℕ) (r : StoredRequest) : StoredRequest := r.advanceCursor length

/-- `addSmallTextFrame`, for a string that is encoded as these bytes. -/
def addSmallTextFrame (payload : Bytes) (opCode : OpCode) (r : StoredRequest) :
    StoredRequest × Bool :=
  let headerLength := if payload.length < 126 then 2 else if payload.length ≤ 0xffff then 4 else 10
  if INLINE_BYTES - headerLength < payload.length then (r.addOwned shortCapacity payload, false)
  else
    let framed := overwrite r.inlineBytes 0 (smallTextHeader headerLength payload.length opCode)
    ({ r with inlineBytes := overwrite framed headerLength payload }.appendPart shortCapacity
      fun target => { target with
        pointer := .inlineBytes 0, length := headerLength + payload.length }, true)

/-- The parts hold these bytes once their pointers are recomputed, and the unused
slots are empty. -/
structure Stores (r : StoredRequest) (ds : List Bytes) : Prop where
  partCount : r.partCount = ds.length
  holds : ∀ i d, ds[i]? = some d → (r.part i).Holds r.inlineBytes d
  extra : r.extraParts.length = r.partCount - 2
  clean : ∀ i, r.partCount ≤ i → r.part i = {}
  memory : r.inlineBytes.length = INLINE_BYTES

/-- No part lies in `inlineBytes`. -/
def Outside (r : StoredRequest) : Prop := ∀ i, i < r.partCount → ¬(r.part i).InRequest

/-- The parts from the cursor on expose the bytes of a list of parts. -/
structure Exposes (r : StoredRequest) (w : WriteRequest) : Prop where
  partCount : r.partCount = w.parts.length
  cursorPart : r.cursorPart = w.cursorPart
  cursorOffset : r.cursorOffset = w.cursorOffset
  bytes : r.bytes = w.bytes
  sent : r.sent = w.sent
  view : ∀ i d, w.cursorPart ≤ i → w.parts[i]? = some d → (r.part i).view r.inlineBytes = some d
  consistent : ∀ i, (r.part i).Consistent
  extra : r.extraParts.length = r.partCount - 2

section
variable {r : StoredRequest} {ds : List Bytes} {d : Bytes} {w : WriteRequest}

theorem part_setPart (hextra : r.extraParts.length = r.partCount - 2) {i : ℕ}
    (hi : i < r.partCount) (p : InputPart) (j : ℕ) :
    (r.setPart i p).part j = if j = i then p else r.part j := by
  unfold setPart part
  by_cases h0 : i = 0
  · subst h0
    by_cases hj0 : j = 0 <;> by_cases hj1 : j = 1 <;> simp_all
  · by_cases h1 : i = 1
    · subst h1
      by_cases hj0 : j = 0 <;> by_cases hj1 : j = 1 <;> simp_all
    · by_cases hj0 : j = 0
      · simp [h0, h1, hj0, Ne.symm h0]
      · by_cases hj1 : j = 1
        · simp [h0, h1, hj1, Ne.symm h1]
        · simp only [if_neg h0, if_neg h1, if_neg hj0, if_neg hj1, List.getD_eq_getElem?_getD,
            List.getElem?_set]
          by_cases hij : j = i
          · subst hij
            rw [if_pos rfl, if_pos (by omega), if_pos rfl]
            rfl
          · rw [if_neg (by omega), if_neg hij]

@[simp] theorem setPart_inlineBytes (i : ℕ) (p : InputPart) (r : StoredRequest) :
    (r.setPart i p).inlineBytes = r.inlineBytes := by
  unfold setPart
  split_ifs <;> rfl

@[simp] theorem setPart_partCount (i : ℕ) (p : InputPart) (r : StoredRequest) :
    (r.setPart i p).partCount = r.partCount := by
  unfold setPart
  split_ifs <;> rfl

@[simp] theorem setPart_bytes (i : ℕ) (p : InputPart) (r : StoredRequest) :
    (r.setPart i p).bytes = r.bytes := by
  unfold setPart
  split_ifs <;> rfl

@[simp] theorem setPart_sent (i : ℕ) (p : InputPart) (r : StoredRequest) :
    (r.setPart i p).sent = r.sent := by
  unfold setPart
  split_ifs <;> rfl

@[simp] theorem setPart_cursorPart (i : ℕ) (p : InputPart) (r : StoredRequest) :
    (r.setPart i p).cursorPart = r.cursorPart := by
  unfold setPart
  split_ifs <;> rfl

@[simp] theorem setPart_cursorOffset (i : ℕ) (p : InputPart) (r : StoredRequest) :
    (r.setPart i p).cursorOffset = r.cursorOffset := by
  unfold setPart
  split_ifs <;> rfl

@[simp] theorem setPart_extraParts_length (i : ℕ) (p : InputPart) (r : StoredRequest) :
    (r.setPart i p).extraParts.length = r.extraParts.length := by
  unfold setPart
  split_ifs <;> simp

theorem emptyParts_drop_past {parts : List Bytes} {i : ℕ} (h : parts.length ≤ i) :
    emptyParts (parts.drop i) = 0 := by
  rw [List.drop_eq_nil_of_le h]
  rfl

theorem drop_of_getElem? {parts : List Bytes} {i : ℕ} (h : parts[i]? = some d) :
    parts.drop i = d :: parts.drop (i + 1) := by
  obtain ⟨hlt, rfl⟩ := List.getElem?_eq_some_iff.mp h
  exact List.drop_eq_getElem_cons hlt

theorem emptyParts_cons_empty (rest : List Bytes) :
    emptyParts ([] :: rest) = emptyParts rest + 1 := by
  simp [emptyParts]

theorem emptyParts_cons {rest : List Bytes} (h : d ≠ []) : emptyParts (d :: rest) = 0 := by
  simp [emptyParts, h]

/-- The cursor lies on a part while it is not behind the last one. -/
theorem Exposes.current (h : Exposes r w) (hlt : r.cursorPart < r.partCount) :
    ∃ d, w.parts[w.cursorPart]? = some d ∧
      (r.part r.cursorPart).view r.inlineBytes = some d ∧
      d.length = (r.part r.cursorPart).length := by
  rw [h.partCount, h.cursorPart] at hlt
  have hd := List.getElem?_eq_getElem hlt
  have hview := h.view _ _ le_rfl hd
  refine ⟨_, hd, ?_, ?_⟩
  · rw [h.cursorPart]
    exact hview
  · rw [h.cursorPart]
    exact InputPart.view_length hview

/-- Releasing the part at the cursor and moving on exposes the parts behind it. -/
theorem Exposes.release (h : Exposes r w) (hlt : r.cursorPart < r.partCount) {offset offset' : ℕ}
    (hoffset : offset = offset') :
    Exposes { r.release r.cursorPart with cursorPart := r.cursorPart + 1, cursorOffset := offset }
      { w with cursorPart := w.cursorPart + 1, cursorOffset := offset' } where
  partCount := by simpa [StoredRequest.release] using h.partCount
  cursorPart := by simp only [h.cursorPart]
  cursorOffset := hoffset
  bytes := by simpa [StoredRequest.release] using h.bytes
  sent := by simpa [StoredRequest.release] using h.sent
  view := by
    intro i d hle hd
    have hne : i ≠ r.cursorPart := by
      rw [h.cursorPart]
      simp only at hle
      omega
    have hview := h.view i d (by simp only at hle; omega) hd
    change ((r.setPart r.cursorPart {}).part i).view (r.setPart r.cursorPart {}).inlineBytes = some d
    rw [part_setPart h.extra hlt, if_neg hne, setPart_inlineBytes]
    exact hview
  consistent := by
    intro i
    change ((r.setPart r.cursorPart {}).part i).Consistent
    rw [part_setPart h.extra hlt]
    split_ifs
    · exact fun hdata => absurd rfl hdata
    · exact h.consistent i
  extra := by simpa [StoredRequest.release] using h.extra

/-- Empty parts are skipped as on the list of parts. -/
theorem Exposes.skipEmptyParts (h : Exposes r w) :
    Exposes r.skipEmptyParts
      { w with cursorPart := w.cursorPart + emptyParts (w.parts.drop w.cursorPart) } := by
  fun_induction StoredRequest.skipEmptyParts r generalizing w with
  | case1 r hcond ih =>
    obtain ⟨d, hd, hview, hlength⟩ := h.current hcond.1
    have hempty : d = [] := List.length_eq_zero_iff.mp (by omega)
    have hoffset : (r.release r.cursorPart).cursorOffset = w.cursorOffset := by
      simp [StoredRequest.release, h.cursorOffset]
    have hnext := ih (h.release hcond.1 hoffset)
    have hcount : w.cursorPart + emptyParts (w.parts.drop w.cursorPart) =
        w.cursorPart + 1 + emptyParts (w.parts.drop (w.cursorPart + 1)) := by
      rw [drop_of_getElem? hd, hempty, emptyParts_cons_empty]
      omega
    rw [hcount]
    exact hnext
  | case2 r hcond =>
    have hnone : emptyParts (w.parts.drop w.cursorPart) = 0 := by
      by_cases hlt : r.cursorPart < r.partCount
      · obtain ⟨d, hd, hview, hlength⟩ := h.current hlt
        rw [drop_of_getElem? hd]
        apply emptyParts_cons
        rintro rfl
        exact hcond ⟨hlt, by rw [← hlength]; rfl⟩
      · rw [h.partCount, h.cursorPart] at hlt
        exact emptyParts_drop_past (by omega)
    rw [hnone]
    exact h

/-- The cursor moves as on the list of parts. -/
theorem Exposes.advanceCursor (h : Exposes r w) (length : ℕ) :
    Exposes (r.advanceCursor length) (w.advanceCursor length) := by
  fun_induction StoredRequest.advanceCursor length r generalizing w with
  | case1 length r hcond available =>
    rename_i hinside
    obtain ⟨d, hd, hview, hlength⟩ := h.current hcond.2
    have hmoved : w.advanceCursor length = { w with cursorOffset := w.cursorOffset + length } := by
      rw [WriteRequest.advanceCursor, drop_of_getElem? hd, moveOver, if_neg hcond.1,
        if_pos (by rw [hlength, ← h.cursorOffset]; exact hinside)]
      rfl
    rw [hmoved]
    exact { h with cursorOffset := by simp only [h.cursorOffset] }
  | case2 length r hcond available hpast =>
    rename_i ih
    obtain ⟨d, hd, hview, hlength⟩ := h.current hcond.2
    have hnext := ih (h.release hcond.2 rfl)
    have hmoved : w.advanceCursor length =
        { w with cursorPart := w.cursorPart + 1, cursorOffset := 0 }.advanceCursor
          (length - ((r.part r.cursorPart).length - r.cursorOffset)) := by
      rw [WriteRequest.advanceCursor, drop_of_getElem? hd, moveOver, if_neg hcond.1,
        if_neg (by rw [hlength, ← h.cursorOffset]; exact hpast), WriteRequest.advanceCursor,
        hlength, h.cursorOffset]
      simp only [Nat.add_assoc, Nat.add_comm 1]
    rw [hmoved]
    exact hnext
  | case3 length r hcond =>
    have hmoved : w.advanceCursor length =
        { w with cursorPart := w.cursorPart + emptyParts (w.parts.drop w.cursorPart) } := by
      rw [WriteRequest.advanceCursor]
      by_cases hlt : r.cursorPart < r.partCount
      · obtain ⟨d, hd, hview, hlength⟩ := h.current hlt
        have hzero : length = 0 := by
          by_contra hne
          exact hcond ⟨hne, hlt⟩
        rw [drop_of_getElem? hd, moveOver, if_pos hzero]
      · rw [h.partCount, h.cursorPart] at hlt
        rw [List.drop_eq_nil_of_le (by omega), moveOver]
        rfl
    rw [hmoved]
    exact h.skipEmptyParts

/-- What the rest of the current part reads. -/
theorem Exposes.remainingData (h : Exposes r w) (hlt : r.cursorPart < r.partCount)
    (hoffset : r.cursorOffset ≤ (r.part r.cursorPart).length) :
    r.remainingData = some w.remainingData := by
  obtain ⟨d, hd, hview, hlength⟩ := h.current hlt
  have hload := Pointer.load_sub hview (Nat.add_sub_of_le hoffset).le
  have hrest : (d.drop r.cursorOffset).take ((r.part r.cursorPart).length - r.cursorOffset) =
      d.drop r.cursorOffset := by
    apply List.take_of_length_le
    rw [List.length_drop]
    omega
  rw [hrest] at hload
  rw [StoredRequest.remainingData, remainingPartBytes, hload, WriteRequest.remainingData,
    List.getD_eq_getElem?_getD, hd, Option.getD_some, h.cursorOffset]

/-- One vector on the list of parts. -/
theorem getElem?_remainingIovecs (w : WriteRequest) (limit i : ℕ) :
    (w.remainingIovecs limit)[i]? = (((w.parts.drop w.cursorPart).take limit)[i]?).map
      fun d => d.drop (if i = 0 then w.cursorOffset else 0) := by
  unfold WriteRequest.remainingIovecs
  cases (w.parts.drop w.cursorPart).take limit with
  | nil => rfl
  | cons current rest =>
    cases i with
    | zero => rfl
    | succ i => simp

/-- What the vectors read. -/
theorem Exposes.remainingIovecs (h : Exposes r w)
    (hoffset : r.cursorPart < r.partCount → r.cursorOffset ≤ (r.part r.cursorPart).length)
    (limit : ℕ) : r.remainingIovecs limit = (w.remainingIovecs limit).map some := by
  apply List.ext_getElem?
  intro i
  rw [List.getElem?_map, getElem?_remainingIovecs, List.getElem?_take, List.getElem?_drop,
    StoredRequest.remainingIovecs, List.getElem?_map]
  by_cases hi : i < min (r.partCount - r.cursorPart) limit
  · have hlimit : i < limit := by omega
    have hlt : w.cursorPart + i < w.parts.length := by
      rw [← h.partCount, ← h.cursorPart]
      omega
    obtain ⟨d, hd⟩ : ∃ d, w.parts[w.cursorPart + i]? = some d :=
      ⟨_, List.getElem?_eq_getElem hlt⟩
    have hview := h.view _ _ (Nat.le_add_right _ _) hd
    rw [← h.cursorPart] at hview
    have hlength := InputPart.view_length hview
    have hle : (if i = 0 then r.cursorOffset else 0) ≤ (r.part (r.cursorPart + i)).length := by
      split_ifs with hzero
      · subst hzero
        exact hoffset (by omega)
      · exact Nat.zero_le _
    have hload := Pointer.load_sub hview (Nat.add_sub_of_le hle).le
    rw [List.take_of_length_le (by rw [List.length_drop]; omega)] at hload
    rw [List.getElem?_range hi, if_pos hlimit, hd, Option.map_some, Option.map_some,
      Option.map_some, hload, h.cursorOffset]
  · rw [List.getElem?_eq_none (by rw [List.length_range]; omega), Option.map_none]
    by_cases hlimit : i < limit
    · have hpast : w.parts.length ≤ w.cursorPart + i := by
        rw [← h.partCount, ← h.cursorPart]
        omega
      rw [if_pos hlimit, List.getElem?_eq_none hpast]
      rfl
    · rw [if_neg hlimit]
      rfl

end

end StoredRequest

end Eiows
