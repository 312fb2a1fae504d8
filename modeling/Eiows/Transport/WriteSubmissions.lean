import Eiows.Transport.WriteRewriting

/-!
# Write submissions

The transport submits four kinds of requests. Each is built from what JavaScript
hands over, prepared, perhaps rewritten, and written from the front. This file
follows the bytes of a submission all the way.
-/

namespace Eiows

open Memory

/-- The bytes that JavaScript hands over, as `readInputPart` stores them. -/
inductive WriteInput where
  /-- A string, or a buffer whose size scripts can change: copied into the part. -/
  | copied (data : Bytes)
  /-- A range of a buffer. -/
  | borrowed (block : Bytes) (offset length : ℕ) (inside : offset + length ≤ block.length)
  /-- A buffer without storage. -/
  | detached

/-- The bytes of an input. -/
def WriteInput.content : WriteInput → Bytes
  | .copied data => data
  | .borrowed block offset length _ => (block.drop offset).take length
  | .detached => []

/-- The requests that `writeMessage`, `writeFrame`, `writeFrameList` and `writeClose`
submit. -/
inductive WriteSubmission where
  /-- A text that is not compressed. -/
  | text (payload : Bytes) (opCode : OpCode)
  /-- Other data that is not compressed. -/
  | message (payload : WriteInput) (opCode : OpCode)
  /-- A compressed message, or a Close frame. -/
  | owned (frame : Bytes)
  /-- Encoded frames. -/
  | frames (first : WriteInput) (others : List WriteInput)

/-- The bytes that a submission is to send. -/
def WriteSubmission.content : WriteSubmission → Bytes
  | .text payload opCode => frameHeader payload.length opCode ++ payload
  | .message payload opCode => frameHeader payload.content.length opCode ++ payload.content
  | .owned frame => frame
  | .frames first others => first.content ++ (others.map WriteInput.content).flatten

namespace StoredRequest

variable (shortCapacity : ℕ)

/-- `addInput`. -/
def addInput (input : WriteInput) (r : StoredRequest) : StoredRequest :=
  match input with
  | .copied data => r.addOwned shortCapacity data
  | .borrowed block offset length _ =>
    r.appendPart shortCapacity fun target =>
      { target with pointer := .external block offset, length := length }
  | .detached =>
    r.appendPart shortCapacity fun target => { target with pointer := .null, length := 0 }

/-- `front`. -/
def front (r : StoredRequest) : InputPart := r.inlineParts.1

/-- Build the request of a submission, in storage with any contents: `none` where
the source aborts. -/
def build (memory : Bytes) : WriteSubmission → Option StoredRequest
  | .text payload opCode =>
    match ({ inlineBytes := memory } : StoredRequest).addSmallTextFrame shortCapacity payload
        opCode with
    | (r, true) => some r
    | (r, false) => r.prependOwned shortCapacity (frameHeader r.front.length opCode)
  | .message payload opCode =>
    let r := ({ inlineBytes := memory } : StoredRequest).addInput shortCapacity payload
    r.prependOwned shortCapacity (frameHeader r.front.length opCode)
  | .owned frame =>
    some (({ inlineBytes := memory } : StoredRequest).addOwned shortCapacity frame)
  | .frames first others =>
    some ((first :: others).foldl (fun r input => r.addInput shortCapacity input)
      { inlineBytes := memory, capacity := others.length + 1 - 2 })

/-- A rewriting function and its argument. -/
inductive Rewrite where
  | flatten
  | coalescePrefix (prefixLength : ℕ)

/-- Rewrite a request. -/
def rewrite (r : StoredRequest) : Rewrite → Option StoredRequest
  | .flatten => r.flatten shortCapacity
  | .coalescePrefix prefixLength => r.coalescePrefix shortCapacity prefixLength

/-- A movement of the cursor, and by how many bytes. -/
inductive Movement where
  | advance (length : ℕ)
  | stageTLS (length : ℕ)

/-- The bytes that the cursor moves over. -/
def Movement.length : Movement → ℕ
  | .advance length => length
  | .stageTLS length => length

/-- Move the cursor. -/
def move (r : StoredRequest) : Movement → StoredRequest
  | .advance length => r.advance length
  | .stageTLS length => r.stageTLS length

section
variable {r : StoredRequest} {ds : List Bytes} {d memory : Bytes}

/-- A header or another string in front of the only part. -/
theorem Stores.prependOwned (h : r.Stores [d]) (houtside : r.Outside) (data : Bytes) :
    ∃ r', r.prependOwned shortCapacity data = some r' ∧ r'.Stores [data, d] ∧ r'.Outside ∧
      r'.sent = r.sent := by
  have hcount : r.partCount = 1 := h.partCount
  have hfirst := h.holds 0 d rfl
  have hout := houtside 0 (by omega)
  rw [StoredRequest.prependOwned, if_neg (by omega), if_neg (by omega)]
  refine ⟨_, rfl, ?_, ?_, rfl⟩
  · constructor
    · rfl
    · intro i e he
      match i with
      | 0 =>
        cases he
        exact fillOwned_holds _ _ _
      | 1 =>
        cases he
        exact hfirst.moveTo shortCapacity _
      | i + 2 => cases he
    · have hextra := h.extra
      rw [hcount] at hextra
      exact hextra
    · intro i hi
      have hclean := h.clean i (by simp only at hi; omega)
      have hi0 : i ≠ 0 := by simp only at hi; omega
      have hi1 : i ≠ 1 := by simp only at hi; omega
      simp only [part, if_neg hi0, if_neg hi1] at hclean ⊢
      exact hclean
    · exact h.memory
  · intro i hi
    rcases i with _ | _ | i
    · exact fillOwned_outside _ _
    · exact InputPart.not_inRequest_moveTo hout shortCapacity _
    · simp only at hi
      omega

theorem addInput_sent (input : WriteInput) :
    (r.addInput shortCapacity input).sent = r.sent := by
  cases input <;> simp [addInput, StoredRequest.addOwned]

/-- A part that points elsewhere than into the request. -/
theorem Stores.appendPlain (h : r.Stores ds) (houtside : r.Outside) {fill : InputPart → InputPart}
    (hholds : (fill {}).Holds r.inlineBytes d) (hfill : ¬(fill {}).InRequest) :
    (r.appendPart shortCapacity fill).Stores (ds ++ [d]) ∧
      (r.appendPart shortCapacity fill).Outside :=
  ⟨h.appendPart shortCapacity _ hholds,
    Outside.appendPart shortCapacity h.extra (h.clean _ le_rfl) houtside _ hfill⟩

/-- An input adds a part with its bytes. -/
theorem Stores.addInput (h : r.Stores ds) (houtside : r.Outside) (input : WriteInput) :
    (r.addInput shortCapacity input).Stores (ds ++ [input.content]) ∧
      (r.addInput shortCapacity input).Outside := by
  cases input with
  | copied data =>
    exact ⟨h.addOwned shortCapacity data, Outside.addOwned shortCapacity h houtside data⟩
  | borrowed block offset length inside =>
    simp only [StoredRequest.addInput]
    apply h.appendPlain shortCapacity houtside
    · unfold InputPart.Holds InputPart.view
      by_cases hzero : length = 0
      · simp [InputPart.repoint, WriteInput.content, hzero]
      · simp [InputPart.repoint, Pointer.load, readRange, slice, WriteInput.content, hzero, inside]
    · rintro ⟨_, hpointer⟩
      cases hpointer
  | detached =>
    simp only [StoredRequest.addInput]
    apply h.appendPlain shortCapacity houtside
    · rfl
    · rintro ⟨_, hpointer⟩
      cases hpointer

/-- The small text header is that of every other frame. -/
theorem smallTextHeader_eq (payloadLength : ℕ) (opCode : OpCode) :
    smallTextHeader (if payloadLength < 126 then 2 else if payloadLength ≤ 0xffff then 4 else 10)
      payloadLength opCode = frameHeader payloadLength opCode := by
  have hfirst : 0x80 ||| opCode.value = 0x80 + opCode.value := by
    cases opCode <;> rfl
  have hbyte (n : ℕ) : UInt8.ofNat (n &&& 0xff) = UInt8.ofNat n := by
    rw [show 0xff = 2 ^ 8 - 1 by rfl, Nat.and_two_pow_sub_one_eq_mod]
    exact UInt8.ofNat_mod_size
  unfold smallTextHeader frameHeader
  rw [hfirst]
  by_cases hsmall : payloadLength < 126
  · simp [hsmall]
  · by_cases hmedium : payloadLength ≤ 0xffff
    · simp [hsmall, hmedium, hbyte, bigEndianBytes_shift, List.range_succ]
    · simp [hsmall, hmedium, bigEndianBytes_shift]

theorem frameHeader_length (payloadLength : ℕ) (opCode : OpCode) :
    (frameHeader payloadLength opCode).length =
      if payloadLength < 126 then 2 else if payloadLength ≤ 0xffff then 4 else 10 := by
  unfold frameHeader
  split_ifs <;> simp [bigEndianBytes]

theorem fresh_stores (hmemory : memory.length = INLINE_BYTES) (capacity : ℕ) :
    ({ inlineBytes := memory, capacity := capacity } : StoredRequest).Stores [] where
  partCount := rfl
  holds := by simp
  extra := rfl
  clean := by
    intro i _
    unfold part
    split_ifs <;> simp
  memory := hmemory

theorem fresh_outside (capacity : ℕ) :
    ({ inlineBytes := memory, capacity := capacity } : StoredRequest).Outside := by
  intro i hi
  exact absurd hi (Nat.not_lt_zero _)

/-- A header and a payload written one behind the other. -/
theorem take_overwrite_twice {header payload : Bytes}
    (h : header.length + payload.length ≤ memory.length) :
    (overwrite (overwrite memory 0 header) header.length payload).take
        (header ++ payload).length = header ++ payload := by
  have hfirst : 0 + header.length ≤ memory.length := by omega
  have hheader := take_overwrite hfirst
  rw [List.length_append, take_overwrite (by rw [overwrite_length hfirst]; exact h)]
  rw [Nat.zero_add, List.take_zero, List.nil_append] at hheader
  rw [hheader]

/-- A small text is framed in the request, or becomes its only part. -/
theorem addSmallTextFrame_stores (hmemory : memory.length = INLINE_BYTES) (payload : Bytes)
    (opCode : OpCode) :
    (∃ r, ({ inlineBytes := memory } : StoredRequest).addSmallTextFrame shortCapacity payload
        opCode = (r, true) ∧ r.Stores [frameHeader payload.length opCode ++ payload] ∧
        r.sent = 0) ∨
      ({ inlineBytes := memory } : StoredRequest).addSmallTextFrame shortCapacity payload
        opCode = (({ inlineBytes := memory } : StoredRequest).addOwned shortCapacity payload,
          false) := by
  have hheader := smallTextHeader_eq payload.length opCode
  have hlength := frameHeader_length payload.length opCode
  rw [← hlength] at hheader
  unfold addSmallTextFrame
  simp only [← hlength, hheader]
  split_ifs with hlong
  · exact .inr rfl
  · left
    have hle : (frameHeader payload.length opCode).length ≤ 10 := by
      rw [hlength]
      split_ifs <;> omega
    have hroom : (frameHeader payload.length opCode).length + payload.length ≤ memory.length := by
      rw [hmemory]
      unfold INLINE_BYTES at hlong ⊢
      omega
    have hfirst : 0 + (frameHeader payload.length opCode).length ≤ memory.length := by omega
    have hstored : (overwrite (overwrite memory 0 (frameHeader payload.length opCode))
        (frameHeader payload.length opCode).length payload).length = INLINE_BYTES := by
      rw [overwrite_length (by rw [overwrite_length hfirst]; exact hroom), overwrite_length hfirst]
      exact hmemory
    refine ⟨_, rfl, ?_, ?_⟩
    · rw [← List.length_append]
      apply (fresh_stores hstored 0).appendPart shortCapacity
      apply inRequest_holds
      · rw [hstored, List.length_append, ← hmemory]
        exact hroom
      · exact take_overwrite_twice hroom
    · simp

/-- The parts of a list of inputs. -/
theorem addInputs_stores (inputs : List WriteInput) (h : r.Stores ds) (houtside : r.Outside) :
    (inputs.foldl (fun r input => r.addInput shortCapacity input) r).Stores
        (ds ++ inputs.map WriteInput.content) ∧
      (inputs.foldl (fun r input => r.addInput shortCapacity input) r).Outside ∧
      (inputs.foldl (fun r input => r.addInput shortCapacity input) r).sent = r.sent := by
  induction inputs generalizing r ds with
  | nil =>
    rw [List.map_nil, List.append_nil]
    exact ⟨h, houtside, rfl⟩
  | cons input rest ih =>
    obtain ⟨hstores, hout⟩ := h.addInput shortCapacity houtside input
    obtain ⟨hstores', hout', hsent⟩ := ih hstores hout
    rw [List.append_assoc] at hstores'
    exact ⟨hstores', hout', hsent.trans (addInput_sent shortCapacity input)⟩

/-- A payload behind its header. -/
theorem Stores.frame (h : r.Stores [d]) (houtside : r.Outside) (opCode : OpCode) :
    ∃ r' ds, r.prependOwned shortCapacity (frameHeader r.front.length opCode) = some r' ∧
      r'.Stores ds ∧ (ds.length ≤ 1 ∨ r'.Outside) ∧ ds ≠ [] ∧
      ds.flatten = frameHeader d.length opCode ++ d ∧ r'.sent = r.sent := by
  have hlength : d.length = r.front.length := (h.holds 0 d rfl).length
  obtain ⟨r', hprepend, hstores, hout, hsent⟩ :=
    h.prependOwned shortCapacity houtside (frameHeader r.front.length opCode)
  refine ⟨r', _, hprepend, hstores, .inr hout, by simp, ?_, hsent⟩
  simp [hlength]

/-- Every submission builds a request whose parts hold its bytes. -/
theorem build_stores (hmemory : memory.length = INLINE_BYTES) (s : WriteSubmission) :
    ∃ r ds, build shortCapacity memory s = some r ∧ r.Stores ds ∧
      (ds.length ≤ 1 ∨ r.Outside) ∧ ds ≠ [] ∧ ds.flatten = s.content ∧ r.sent = 0 := by
  have hfresh := fresh_stores hmemory 0
  have hout : ({ inlineBytes := memory } : StoredRequest).Outside := fresh_outside 0
  cases s with
  | text payload opCode =>
    obtain ⟨r, hadd, hstores, hsent⟩ | hadd :=
      addSmallTextFrame_stores shortCapacity hmemory payload opCode
    · refine ⟨r, _, ?_, hstores, .inl le_rfl, by simp, ?_, hsent⟩
      · simp only [build, hadd]
      · exact List.flatten_singleton
    · have hstores := hfresh.addOwned shortCapacity payload
      have hout' := Outside.addOwned shortCapacity hfresh hout payload
      obtain ⟨r, ds, hprepend, hframe⟩ := hstores.frame shortCapacity hout' opCode
      refine ⟨r, ds, ?_, ?_⟩
      · simp only [build, hadd]
        exact hprepend
      · rw [WriteSubmission.content]
        simpa [StoredRequest.addOwned] using hframe
  | message payload opCode =>
    obtain ⟨hstores, hout'⟩ := hfresh.addInput shortCapacity hout payload
    obtain ⟨r, ds, hprepend, hframe⟩ := hstores.frame shortCapacity hout' opCode
    rw [addInput_sent] at hframe
    exact ⟨r, ds, hprepend, hframe⟩
  | owned frame =>
    refine ⟨_, _, rfl, hfresh.addOwned shortCapacity frame, .inl le_rfl, by simp, ?_, ?_⟩
    · exact List.flatten_singleton
    · simp [StoredRequest.addOwned]
  | frames first others =>
    obtain ⟨hstores, hout', hsent⟩ := addInputs_stores shortCapacity
      (first :: others) (fresh_stores hmemory (others.length + 1 - 2)) (fresh_outside _)
    exact ⟨_, _, rfl, hstores, .inr hout', by simp, by simp [WriteSubmission.content], hsent⟩

end

/-- The parts read these bytes, which are counted, and every pointer to an owned
string agrees with `ownedOffset`. -/
structure Intact (r : StoredRequest) (content : Bytes) : Prop where
  parts : r.copyAll = some content
  bytes : r.bytes = content.length
  consistent : ∀ i, (r.part i).Consistent

/-- What the request still exposes are the bytes behind an offset. -/
structure ExposedFrom (r : StoredRequest) (content : Bytes) (offset : ℕ) : Prop where
  /-- Vectors for all parts read all of them. -/
  all : ∃ ds : List Bytes, r.remainingIovecs r.partCount = ds.map some ∧ ds.flatten = content.drop offset
  /-- Fewer vectors read some of them. -/
  vectors : ∀ limit, 0 < limit → ∃ ds : List Bytes, r.remainingIovecs limit = ds.map some ∧
    ds.flatten <+: content.drop offset ∧ (offset < content.length → ds.flatten ≠ [])
  /-- So does the rest of the current part. -/
  data : offset < content.length → ∃ d, r.remainingData = some d ∧
    d.length = r.remainingPartBytes ∧ d <+: content.drop offset ∧ d ≠ []
  /-- The cursor does not lie on an empty part. -/
  current : offset < content.length →
    r.cursorPart < r.partCount ∧ (r.part r.cursorPart).length ≠ 0

section
variable {r : StoredRequest} {w : WriteRequest} {memory : Bytes} {offset : ℕ}

theorem Prepared.intact (h : r.Prepared w) : r.Intact w.content :=
  ⟨h.copyAll, h.bytes, h.exposes.consistent⟩

/-- Rewriting keeps a request prepared, with the same bytes. -/
theorem Prepared.rewrites (h : r.Prepared w) (rewrites : List Rewrite) :
    ∃ r' w', rewrites.foldlM (rewrite shortCapacity) r = some r' ∧ r'.Prepared w' ∧
      w'.content = w.content := by
  induction rewrites generalizing r w with
  | nil => exact ⟨r, w, rfl, h, rfl⟩
  | cons first rest ih =>
    obtain ⟨r₁, w₁, hstep, hprepared, hcontent⟩ : ∃ r₁ w₁, r.rewrite shortCapacity first = some r₁ ∧
        r₁.Prepared w₁ ∧ w₁.content = w.content := by
      cases first with
      | flatten =>
        obtain ⟨r₁, w₁, hr, -, hprepared, hcontent⟩ := h.flatten shortCapacity
        exact ⟨r₁, w₁, hr, hprepared, hcontent⟩
      | coalescePrefix prefixLength =>
        obtain ⟨r₁, w₁, hr, -, hprepared, hcontent⟩ := h.coalescePrefix shortCapacity prefixLength
        exact ⟨r₁, w₁, hr, hprepared, hcontent⟩
    obtain ⟨r', w', hrest, hprepared', hcontent'⟩ := ih hprepared
    refine ⟨r', w', ?_, hprepared', hcontent'.trans hcontent⟩
    rw [List.foldlM_cons, hstep]
    exact hrest

/-- The cursor moves by the bytes it is told. -/
theorem Exposes.move (h : r.Exposes w) (hat : w.At offset) (m : Movement)
    (hlength : offset + m.length ≤ w.content.length) :
    ∃ w', (r.move m).Exposes w' ∧ w'.At (offset + m.length) ∧ w'.content = w.content := by
  cases m with
  | advance length =>
    have hsent : ({ r with sent := r.sent + length } : StoredRequest).Exposes
        { w with sent := w.sent + length } :=
      { h with sent := by simp only [h.sent] }
    have hat' : ({ w with sent := w.sent + length } : WriteRequest).At offset := { hat with }
    exact ⟨_, hsent.advanceCursor length, hat'.advanceCursor length hlength, rfl⟩
  | stageTLS length =>
    exact ⟨_, h.advanceCursor length, hat.advanceCursor length hlength, rfl⟩

theorem Exposes.moves (h : r.Exposes w) (hat : w.At offset) (moves : List Movement)
    (hlength : offset + (moves.map Movement.length).sum ≤ w.content.length) :
    ∃ w', (moves.foldl StoredRequest.move r).Exposes w' ∧
      w'.At (offset + (moves.map Movement.length).sum) ∧ w'.content = w.content := by
  induction moves generalizing r w offset with
  | nil => exact ⟨w, h, hat, rfl⟩
  | cons m rest ih =>
    rw [List.map_cons, List.sum_cons, ← Nat.add_assoc] at hlength ⊢
    obtain ⟨w₁, hexposes, hat₁, hcontent⟩ := h.move hat m (by omega)
    rw [← hcontent] at hlength ⊢
    obtain ⟨w', hexposes', hat', hcontent'⟩ := ih hexposes hat₁ hlength
    exact ⟨w', hexposes', hat', hcontent'⟩

/-- The cursor lies inside the current part. -/
theorem Exposes.cursorOffset_lt (h : r.Exposes w) (hat : w.At offset)
    (hlt : r.cursorPart < r.partCount) : r.cursorOffset < (r.part r.cursorPart).length := by
  obtain ⟨d, hd, -, hlength⟩ := h.current hlt
  have hcursor := hat.cursor
  rw [WriteRequest.CursorValid, drop_of_getElem? hd] at hcursor
  rw [← hlength, h.cursorOffset]
  exact hcursor

/-- The cursor lies on a part while bytes are left. -/
theorem Exposes.cursorPart_lt (h : r.Exposes w) (hat : w.At offset)
    (hleft : offset < w.content.length) : r.cursorPart < r.partCount := by
  by_contra hpast
  rw [h.partCount, h.cursorPart] at hpast
  have hnone : w.parts.drop w.cursorPart = [] := List.drop_eq_nil_of_le (by omega)
  have hremaining := congrArg List.length hat.remaining
  rw [WriteRequest.remaining, hnone, List.flatten_nil, List.drop_nil, List.length_nil,
    List.length_drop] at hremaining
  omega

/-- Vectors for all parts read what is left. -/
theorem remainingIovecs_all (hat : w.At offset) :
    (w.remainingIovecs w.parts.length).flatten = w.content.drop offset := by
  rw [← hat.remaining]
  have hcursor := hat.cursor
  unfold WriteRequest.CursorValid at hcursor
  unfold WriteRequest.remainingIovecs WriteRequest.remaining
  rw [List.take_of_length_le (by rw [List.length_drop]; omega)]
  cases hdrop : w.parts.drop w.cursorPart with
  | nil => simp
  | cons current rest =>
    rw [hdrop] at hcursor
    have hlt : w.cursorOffset < current.length := hcursor
    rw [List.flatten_cons, List.flatten_cons, List.drop_append_of_le_length hlt.le]

/-- A request that exposes a list of parts with its cursor behind some bytes. -/
theorem Exposes.exposedFrom (h : r.Exposes w) (hat : w.At offset) :
    r.ExposedFrom w.content offset where
  all := by
    have hinside (hlt : r.cursorPart < r.partCount) := (h.cursorOffset_lt hat hlt).le
    refine ⟨_, h.remainingIovecs hinside r.partCount, ?_⟩
    rw [h.partCount]
    exact remainingIovecs_all hat
  vectors := by
    intro limit hlimit
    have hinside (hlt : r.cursorPart < r.partCount) := (h.cursorOffset_lt hat hlt).le
    obtain ⟨hfront, hsome⟩ := hat.remainingIovecs hlimit
    exact ⟨_, h.remainingIovecs hinside limit, hfront, hsome⟩
  data := by
    intro hleft
    have hlt := h.cursorPart_lt hat hleft
    have hread := h.remainingData hlt (h.cursorOffset_lt hat hlt).le
    obtain ⟨hfront, hsome⟩ := hat.remainingData
    exact ⟨_, hread, Pointer.load_length hread, hfront, hsome hleft⟩
  current := by
    intro hleft
    have hlt := h.cursorPart_lt hat hleft
    have hinside := h.cursorOffset_lt hat hlt
    exact ⟨hlt, by omega⟩

end

/-- What the kernel or OpenSSL accepts of the bytes that it is offered. -/
inductive Acceptance where
  /-- `sendmsg`, with at most `limit` vectors. -/
  | sendmsg (limit length : ℕ)
  /-- `SSL_write_ex`, with the rest of a part. -/
  | sslWrite (length : ℕ)

/-- The bytes that are offered. `writeTLS` offers a part only while bytes are left. -/
def offered (r : StoredRequest) : Acceptance → Option Bytes
  | .sendmsg limit _ => ((r.remainingIovecs limit).mapM id).map List.flatten
  | .sslWrite _ => if r.cursorPart < r.partCount then r.remainingData else none

/-- Accept bytes, and move the cursor over them. -/
def accept (r : StoredRequest) (a : Acceptance) : Option (Bytes × StoredRequest) :=
  match r.offered a, a with
  | none, _ => none
  | some data, .sendmsg _ length =>
    if length ≤ data.length then some (data.take length, r.advance length) else none
  | some data, .sslWrite length =>
    if length ≤ data.length then some (data.take length, r.stageTLS length) else none

/-- Everything that is accepted, in order. -/
def transmit : List Acceptance → StoredRequest → Option (Bytes × StoredRequest)
  | [], r => some ([], r)
  | a :: rest, r =>
    match r.accept a with
    | none => none
    | some (data, r) => (transmit rest r).map fun (others, r) => (data ++ others, r)

/-- Some calls of one kind, told only how much is accepted, send these bytes. -/
def Sends (r : StoredRequest) (call : ℕ → Acceptance) (data : Bytes) : Prop :=
  ∃ (lengths : List ℕ) (r' : StoredRequest), transmit (lengths.map call) r = some (data, r')

section
variable {r r' : StoredRequest} {w : WriteRequest} {data : Bytes} {offset : ℕ}

theorem mapM_id_map_some (ds : List Bytes) : (ds.map some).mapM id = some ds := by
  induction ds with
  | nil => rfl
  | cons d rest ih => simp [List.map_cons, List.mapM_cons, ih]

/-- What is offered are the next bytes. -/
theorem Exposes.offered (h : r.Exposes w) (hat : w.At offset) {a : Acceptance}
    (hdata : r.offered a = some data) : data <+: w.content.drop offset := by
  have hinside (hlt : r.cursorPart < r.partCount) := (h.cursorOffset_lt hat hlt).le
  cases a with
  | sendmsg limit length =>
    rw [StoredRequest.offered, h.remainingIovecs hinside, mapM_id_map_some, Option.map_some] at hdata
    cases hdata
    by_cases hlimit : 0 < limit
    · exact (hat.remainingIovecs hlimit).1
    · have hzero : limit = 0 := by omega
      simp [hzero, WriteRequest.remainingIovecs]
  | sslWrite length =>
    rw [StoredRequest.offered] at hdata
    split_ifs at hdata with hlt
    rw [h.remainingData hlt (hinside hlt)] at hdata
    cases hdata
    exact hat.remainingData.1

/-- What is accepted are the next bytes, and the cursor moves over them. -/
theorem Exposes.accept (h : r.Exposes w) (hat : w.At offset) {a : Acceptance}
    (haccept : r.accept a = some (data, r')) :
    ∃ w', r'.Exposes w' ∧ w'.At (offset + data.length) ∧ w'.content = w.content ∧
      data <+: w.content.drop offset := by
  have hadvance (m : Movement) (hle : m.length ≤ (w.content.drop offset).length) :=
    h.move hat m (by rw [List.length_drop] at hle; have := hat.offset_le; omega)
  unfold StoredRequest.accept at haccept
  cases hoffered : r.offered a with
  | none => rw [hoffered] at haccept; cases haccept
  | some all =>
    have hfront := h.offered hat hoffered
    rw [hoffered] at haccept
    cases a with
    | sendmsg limit length =>
      simp only at haccept
      split_ifs at haccept with hle
      cases haccept
      obtain ⟨w', hexposes, hat', hcontent⟩ :=
        hadvance (.advance length) (le_trans hle hfront.length_le)
      refine ⟨w', hexposes, ?_, hcontent, (List.take_prefix _ _).trans hfront⟩
      rw [List.length_take_of_le hle]
      exact hat'
    | sslWrite length =>
      simp only at haccept
      split_ifs at haccept with hle
      cases haccept
      obtain ⟨w', hexposes, hat', hcontent⟩ :=
        hadvance (.stageTLS length) (le_trans hle hfront.length_le)
      refine ⟨w', hexposes, ?_, hcontent, (List.take_prefix _ _).trans hfront⟩
      rw [List.length_take_of_le hle]
      exact hat'

/-- Everything that is accepted is a prefix of what was left, and the cursor lies
behind it. -/
theorem Exposes.transmit (h : r.Exposes w) (hat : w.At offset) (steps : List Acceptance)
    (htransmit : StoredRequest.transmit steps r = some (data, r')) :
    data <+: w.content.drop offset ∧
      ∃ w', r'.Exposes w' ∧ w'.At (offset + data.length) ∧ w'.content = w.content := by
  induction steps generalizing r w offset data with
  | nil =>
    cases htransmit
    exact ⟨List.nil_prefix, w, h, hat, rfl⟩
  | cons a rest ih =>
    unfold StoredRequest.transmit at htransmit
    cases haccept : r.accept a with
    | none => rw [haccept] at htransmit; cases htransmit
    | some accepted =>
      obtain ⟨first, r₁⟩ := accepted
      rw [haccept] at htransmit
      obtain ⟨⟨others, r₂⟩, hrest, heq⟩ := Option.map_eq_some_iff.mp htransmit
      cases heq
      obtain ⟨w₁, hexposes, hat₁, hcontent, hfront⟩ := h.accept hat haccept
      obtain ⟨hothers, w', hexposes', hat', hcontent'⟩ := ih hexposes hat₁ hrest
      rw [hcontent, ← List.drop_drop] at hothers
      obtain ⟨behind, hbehind⟩ := hfront
      rw [← hbehind, List.drop_left] at hothers
      refine ⟨?_, w', hexposes', ?_, hcontent'.trans hcontent⟩
      · rw [← hbehind]
        exact (List.prefix_append_right_inj _).mpr hothers
      · rw [List.length_append, ← Nat.add_assoc]
        exact hat'

/-- While bytes are left, `sendmsg` is offered some and may take them all. -/
theorem Exposes.sendmsg_accepts (h : r.Exposes w) (hat : w.At offset)
    (hleft : offset < w.content.length) {limit : ℕ} (hlimit : 0 < limit) :
    ∃ length data r', r.accept (.sendmsg limit length) = some (data, r') ∧ data ≠ [] := by
  obtain ⟨ds, hvectors, -, hsome⟩ := (h.exposedFrom hat).vectors limit hlimit
  have hoffered : r.offered (.sendmsg limit ds.flatten.length) = some ds.flatten := by
    rw [StoredRequest.offered, hvectors, mapM_id_map_some, Option.map_some]
  refine ⟨ds.flatten.length, ds.flatten, r.advance ds.flatten.length, ?_, hsome hleft⟩
  unfold StoredRequest.accept
  simp only [hoffered, le_refl, if_true, List.take_length]

/-- So is `SSL_write_ex`. -/
theorem Exposes.sslWrite_accepts (h : r.Exposes w) (hat : w.At offset)
    (hleft : offset < w.content.length) :
    ∃ length data r', r.accept (.sslWrite length) = some (data, r') ∧ data ≠ [] := by
  obtain ⟨d, hread, -, -, hsome⟩ := (h.exposedFrom hat).data hleft
  have hoffered : r.offered (.sslWrite d.length) = some d := by
    rw [StoredRequest.offered, if_pos (h.cursorPart_lt hat hleft), hread]
  refine ⟨d.length, d, r.stageTLS d.length, ?_, hsome⟩
  unfold StoredRequest.accept
  simp only [hoffered, le_refl, if_true, List.take_length]

/-- Calls that are offered some bytes while there are any take all of them, in time. -/
theorem Exposes.sends (h : r.Exposes w) (hat : w.At offset) (call : ℕ → Acceptance)
    (haccepts : ∀ {r w offset}, Exposes r w → w.At offset → offset < w.content.length →
      ∃ length data r', r.accept (call length) = some (data, r') ∧ data ≠ []) :
    r.Sends call (w.content.drop offset) := by
  induction hleft : w.content.length - offset using Nat.strong_induction_on
    generalizing r w offset with
  | _ left ih =>
    by_cases hlt : offset < w.content.length
    · obtain ⟨length, data, r₁, haccept, hsome⟩ := haccepts h hat hlt
      obtain ⟨w₁, hexposes, hat₁, hcontent, behind, hbehind⟩ := h.accept hat haccept
      have hpositive := List.length_pos_of_ne_nil hsome
      have hdrop : w.content.drop (offset + data.length) = behind := by
        rw [← List.drop_drop, ← hbehind, List.drop_left]
      obtain ⟨lengths, r', hrest⟩ :=
        ih (w₁.content.length - (offset + data.length)) (by rw [hcontent]; omega) hexposes hat₁ rfl
      refine ⟨length :: lengths, r', ?_⟩
      unfold StoredRequest.transmit
      rw [List.map_cons]
      simp only [haccept]
      rw [hrest, hcontent, hdrop, ← hbehind]
      rfl
    · refine ⟨[], r, ?_⟩
      rw [List.drop_eq_nil_of_le (by omega)]
      rfl

end

/-- A submission that a `size_t` counts can be prepared and rewritten. -/
theorem submission_prepared (memory : { m : Bytes // m.length = INLINE_BYTES })
    (s : WriteSubmission) (hfits : s.content.length ≤ sizeMax) (rewrites : List Rewrite) :
    ∃ r w, (((build shortCapacity memory s).bind prepare).bind
        (rewrites.foldlM (rewrite shortCapacity))) = some r ∧ r.Prepared w ∧
      w.content = s.content := by
  obtain ⟨r₀, ds, hbuild, hstores, houtside, hne, hflatten, hsent⟩ :=
    build_stores shortCapacity memory.2 s
  obtain ⟨r₁, w₁, hprepare, -, hprepared, hcontent⟩ :=
    hstores.prepare houtside hne (by rw [hflatten]; exact hfits) (w := { parts := ds }) rfl hsent
  obtain ⟨r₂, w₂, hrewrites, hprepared₂, hcontent₂⟩ := hprepared.rewrites shortCapacity rewrites
  refine ⟨r₂, w₂, ?_, hprepared₂, hcontent₂.trans (hcontent.trans hflatten)⟩
  rw [hbuild, Option.bind_some, hprepare, Option.bind_some, hrewrites]

/-- A submission of any kind keeps its bytes: through `prepare`, which refuses only
what no `size_t` counts, through any rewriting, and through any movements of the
cursor. -/
theorem submission_exact (memory : { m : Bytes // m.length = INLINE_BYTES }) (s : WriteSubmission) :
    ∃ r₀, build shortCapacity memory s = some r₀ ∧
      ((sizeMax < s.content.length ∧ r₀.prepare = none) ∨
        ∃ r₁, r₀.prepare = some r₁ ∧ r₁.Intact s.content ∧
          ∀ rewrites : List Rewrite, ∃ r₂, rewrites.foldlM (rewrite shortCapacity) r₁ = some r₂ ∧
            r₂.Intact s.content ∧
            ∀ moves : List Movement, (moves.map Movement.length).sum ≤ s.content.length →
              (moves.foldl move r₂).ExposedFrom s.content (moves.map Movement.length).sum) := by
  obtain ⟨r₀, ds, hbuild, hstores, houtside, hne, hflatten, hsent⟩ :=
    build_stores shortCapacity memory.2 s
  refine ⟨r₀, hbuild, ?_⟩
  by_cases hfits : ds.flatten.length ≤ sizeMax
  · right
    obtain ⟨r₁, w₁, hprepare, -, hprepared, hcontent⟩ :=
      hstores.prepare houtside hne hfits (w := { parts := ds }) rfl hsent
    have hbytes : w₁.content = s.content := hcontent.trans hflatten
    rw [← hbytes]
    refine ⟨r₁, hprepare, hprepared.intact, ?_⟩
    intro rewrites
    obtain ⟨r₂, w₂, hrewrites, hprepared₂, hcontent₂⟩ := hprepared.rewrites shortCapacity rewrites
    rw [← hcontent₂]
    refine ⟨r₂, hrewrites, hprepared₂.intact, ?_⟩
    intro moves hmoves
    obtain ⟨w₃, hexposes, hat, hcontent₃⟩ :=
      hprepared₂.exposes.moves hprepared₂.start moves (by omega)
    rw [Nat.zero_add] at hat
    rw [← hcontent₃]
    exact hexposes.exposedFrom hat
  · left
    have hloop := hstores.prepareLoop_none le_rfl (by rw [List.take_length]; omega)
    rw [← hstores.partCount] at hloop
    refine ⟨by rw [← hflatten]; omega, ?_⟩
    unfold StoredRequest.prepare
    rw [hloop]

end StoredRequest

end Eiows
