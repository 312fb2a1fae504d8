import Eiows.Transport.WriteSubmissions

/-!
# Requests in memory and requests as lists

The transport of a connection is modelled with requests that are lists of parts. In
memory a request has pointers into buffers of scripts, into strings of its own and into
itself, which `prepare` and the rewriting functions move. Both go through the same
steps: the kernel and OpenSSL are offered the same bytes at every step.
-/

namespace Eiows

/-- The request that the transport of a connection makes of a submission. -/
def WriteSubmission.request : WriteSubmission → WriteRequest
  | .text payload opCode =>
    match ({} : WriteRequest).addSmallTextFrame payload opCode with
    | (r, true) => r
    | (r, false) => r.prependOwned (frameHeader payload.length opCode)
  | .message payload opCode =>
    (({} : WriteRequest).addPart payload.content).prependOwned
      (frameHeader payload.content.length opCode)
  | .owned frame => ({} : WriteRequest).addPart frame
  | .frames first others => { parts := (first :: others).map WriteInput.content }

namespace WriteRequest

/-- Rewrite a request. -/
def rewrite (r : WriteRequest) : StoredRequest.Rewrite → Option WriteRequest
  | .flatten => r.flatten
  | .coalescePrefix prefixLength => r.coalescePrefix prefixLength

/-- The vectors that the kernel reads, or the data that OpenSSL reads. -/
def shown (r : WriteRequest) : StoredRequest.Acceptance → Option (List Bytes)
  | .sendmsg limit _ => some (r.remainingIovecs limit)
  | .sslWrite _ => if r.cursorPart < r.parts.length then some [r.remainingData] else none

/-- Accept bytes of what is shown, and move the cursor over them. -/
def accept (r : WriteRequest) (a : StoredRequest.Acceptance) : Option WriteRequest :=
  match r.shown a, a with
  | none, _ => none
  | some vectors, .sendmsg _ length =>
    if length ≤ vectors.flatten.length then some (r.advance length) else none
  | some vectors, .sslWrite length =>
    if length ≤ vectors.flatten.length then some (r.stageTLS length) else none

/-- What is shown at each step. -/
def trace : List StoredRequest.Acceptance → WriteRequest → Option (List (List Bytes))
  | [], _ => some []
  | a :: rest, r =>
    (r.shown a).bind fun vectors =>
      (r.accept a).bind fun r => (trace rest r).map fun others => vectors :: others

end WriteRequest

namespace StoredRequest

variable (shortCapacity : ℕ)

/-- The vectors that the kernel reads, or the data that OpenSSL reads: `none` where a
pointer leads outside of what it points into. -/
def shown (r : StoredRequest) : Acceptance → Option (List Bytes)
  | .sendmsg limit _ => (r.remainingIovecs limit).mapM id
  | .sslWrite _ =>
    if r.cursorPart < r.partCount then r.remainingData.map fun data => [data] else none

/-- What is shown at each step. -/
def trace : List Acceptance → StoredRequest → Option (List (List Bytes))
  | [], _ => some []
  | a :: rest, r =>
    (r.shown a).bind fun vectors =>
      (r.accept a).bind fun accepted =>
        (trace rest accepted.2).map fun others => vectors :: others

section
variable {r : StoredRequest} {w : WriteRequest} {memory : Bytes} {offset : ℕ}

/-- Both kinds of requests take a small text in or leave it outside. -/
theorem addSmallTextFrame_snd (w : WriteRequest) (r : StoredRequest) (payload : Bytes)
    (opCode : OpCode) : (r.addSmallTextFrame shortCapacity payload opCode).2 =
      (w.addSmallTextFrame payload opCode).2 := by
  unfold addSmallTextFrame WriteRequest.addSmallTextFrame
  dsimp only
  split_ifs <;> rfl

/-- What the list holds for a text. -/
theorem request_text (payload : Bytes) (opCode : OpCode) :
    (WriteSubmission.text payload opCode).request =
      if (({} : WriteRequest).addSmallTextFrame payload opCode).2 = true then
        { parts := [frameHeader payload.length opCode ++ payload] }
      else { parts := [frameHeader payload.length opCode, payload] } := by
  unfold WriteSubmission.request WriteRequest.addSmallTextFrame
  dsimp only
  split_ifs <;> first | rfl | contradiction

/-- Every submission builds a request whose parts hold those of the list. -/
theorem build_request (hmemory : memory.length = INLINE_BYTES) (s : WriteSubmission) :
    ∃ r, build shortCapacity memory s = some r ∧ r.Stores s.request.parts ∧
      (s.request.parts.length ≤ 1 ∨ r.Outside) ∧ s.request.parts ≠ [] ∧ r.sent = 0 ∧
      s.request.sent = 0 := by
  have hfresh := fresh_stores hmemory 0
  have hout : ({ inlineBytes := memory } : StoredRequest).Outside := fresh_outside 0
  cases s with
  | text payload opCode =>
    have hflag := addSmallTextFrame_snd shortCapacity {} { inlineBytes := memory } payload opCode
    obtain ⟨r, hadd, hstores, hsent⟩ | hadd :=
      addSmallTextFrame_stores shortCapacity hmemory payload opCode
    · rw [hadd] at hflag
      rw [request_text, if_pos hflag.symm]
      exact ⟨r, by simp only [build, hadd], hstores, .inl le_rfl, by simp, hsent, rfl⟩
    · rw [hadd] at hflag
      have hstores := hfresh.addOwned shortCapacity payload
      have hout' := Outside.addOwned shortCapacity hfresh hout payload
      have hlength : payload.length = _ := (hstores.holds 0 _ rfl).length
      obtain ⟨r, hprepend, hstores', hout'', hsent⟩ :=
        hstores.prependOwned shortCapacity hout' (frameHeader payload.length opCode)
      rw [request_text, if_neg (by rw [← hflag]; exact Bool.false_ne_true)]
      refine ⟨r, ?_, hstores', .inr hout'', by simp, by simpa [StoredRequest.addOwned] using hsent, rfl⟩
      simp only [build, hadd]
      rw [hlength] at hprepend
      exact hprepend
  | message payload opCode =>
    obtain ⟨hstores, hout'⟩ := hfresh.addInput shortCapacity hout payload
    have hlength : payload.content.length = _ := (hstores.holds 0 _ rfl).length
    obtain ⟨r, hprepend, hstores', hout'', hsent⟩ :=
      hstores.prependOwned shortCapacity hout' (frameHeader payload.content.length opCode)
    refine ⟨r, ?_, hstores', .inr hout'', by simp [WriteSubmission.request, WriteRequest.prependOwned],
      hsent.trans (addInput_sent shortCapacity payload), rfl⟩
    rw [hlength] at hprepend
    exact hprepend
  | owned frame =>
    exact ⟨_, rfl, hfresh.addOwned shortCapacity frame, .inl le_rfl,
      by simp [WriteSubmission.request, WriteRequest.addPart], by simp [StoredRequest.addOwned], rfl⟩
  | frames first others =>
    obtain ⟨hstores, hout', hsent⟩ := addInputs_stores shortCapacity
      (first :: others) (fresh_stores hmemory (others.length + 1 - 2)) (fresh_outside _)
    exact ⟨_, rfl, hstores, .inr hout', by simp [WriteSubmission.request], hsent, rfl⟩

/-- A request in memory is rewritten where its list is, into the same parts. -/
theorem Prepared.rewrites_lockstep (h : r.Prepared w) (rewrites : List Rewrite) :
    ∃ r' w', rewrites.foldlM (rewrite shortCapacity) r = some r' ∧
      rewrites.foldlM WriteRequest.rewrite w = some w' ∧ r'.Prepared w' := by
  induction rewrites generalizing r w with
  | nil => exact ⟨r, w, rfl, rfl, h⟩
  | cons first rest ih =>
    obtain ⟨r₁, w₁, hr, hw, hprepared⟩ : ∃ r₁ w₁, r.rewrite shortCapacity first = some r₁ ∧
        w.rewrite first = some w₁ ∧ r₁.Prepared w₁ := by
      cases first with
      | flatten =>
        obtain ⟨r₁, w₁, hr, hw, hprepared, -⟩ := h.flatten shortCapacity
        exact ⟨r₁, w₁, hr, hw, hprepared⟩
      | coalescePrefix prefixLength =>
        obtain ⟨r₁, w₁, hr, hw, hprepared, -⟩ := h.coalescePrefix shortCapacity prefixLength
        exact ⟨r₁, w₁, hr, hw, hprepared⟩
    obtain ⟨r', w', hrest, hrest', hprepared'⟩ := ih hprepared
    refine ⟨r', w', ?_, ?_, hprepared'⟩
    · rw [List.foldlM_cons, hr]
      exact hrest
    · rw [List.foldlM_cons, hw]
      exact hrest'

/-- Both show the same vectors. -/
theorem Exposes.shown (h : r.Exposes w) (hat : w.At offset) (a : Acceptance) :
    r.shown a = w.shown a := by
  have hinside (hlt : r.cursorPart < r.partCount) := (h.cursorOffset_lt hat hlt).le
  cases a with
  | sendmsg limit length =>
    rw [StoredRequest.shown, h.remainingIovecs hinside, mapM_id_map_some, WriteRequest.shown]
  | sslWrite length =>
    rw [StoredRequest.shown, WriteRequest.shown, ← h.partCount, ← h.cursorPart]
    split_ifs with hlt
    · rw [h.remainingData hlt (hinside hlt), Option.map_some]
    · rfl

/-- The bytes that are offered are those of the vectors. -/
theorem offered_eq (a : Acceptance) : r.offered a = (r.shown a).map List.flatten := by
  cases a with
  | sendmsg limit length => rfl
  | sslWrite length =>
    rw [StoredRequest.offered, StoredRequest.shown]
    split_ifs with hlt
    · cases r.remainingData <;> simp
    · rfl

/-- Both accept bytes, or neither does. -/
theorem Exposes.accept_lockstep (h : r.Exposes w) (hat : w.At offset) (a : Acceptance) :
    (r.accept a = none ∧ w.accept a = none) ∨
      ∃ data r' w', r.accept a = some (data, r') ∧ w.accept a = some w' ∧ r'.Exposes w' ∧
        ∃ offset', w'.At offset' := by
  have hshown := h.shown hat a
  have hoffered := offered_eq (r := r) a
  rw [hshown] at hoffered
  unfold StoredRequest.accept WriteRequest.accept
  cases hw : w.shown a with
  | none =>
    rw [hoffered, hw]
    exact .inl ⟨rfl, rfl⟩
  | some vectors =>
    rw [hw, Option.map_some] at hoffered
    have hfront := h.offered hat hoffered
    rw [hoffered]
    have hadvance (length : ℕ) (hle : length ≤ vectors.flatten.length) :
        offset + length ≤ w.content.length := by
      have hbound := hfront.length_le
      rw [List.length_drop] at hbound
      have := hat.offset_le
      omega
    cases a with
    | sendmsg limit length =>
      dsimp only
      split_ifs with hle
      · have hsent : ({ r with sent := r.sent + length } : StoredRequest).Exposes
            { w with sent := w.sent + length } :=
          { h with sent := by simp only [h.sent] }
        have hat' : ({ w with sent := w.sent + length } : WriteRequest).At offset := { hat with }
        exact .inr ⟨_, _, _, rfl, rfl, hsent.advanceCursor length, _,
          hat'.advanceCursor length (hadvance length hle)⟩
      · exact .inl ⟨rfl, rfl⟩
    | sslWrite length =>
      dsimp only
      split_ifs with hle
      · exact .inr ⟨_, _, _, rfl, rfl, h.advanceCursor length, _,
          hat.advanceCursor length (hadvance length hle)⟩
      · exact .inl ⟨rfl, rfl⟩

/-- Both show the same vectors at every step. -/
theorem Exposes.trace (h : r.Exposes w) (hat : w.At offset) (steps : List Acceptance) :
    trace steps r = w.trace steps := by
  induction steps generalizing r w offset with
  | nil => rfl
  | cons a rest ih =>
    unfold StoredRequest.trace WriteRequest.trace
    rw [h.shown hat]
    obtain ⟨hr, hw⟩ | ⟨data, r', w', hr, hw, hexposes, offset', hat'⟩ := h.accept_lockstep hat a
    · rw [hr, hw]
      rfl
    · simp only [hr, hw, Option.bind_some]
      rw [ih hexposes hat']

end

/-- The request in memory and the list of parts agree on a submission of any kind:
`prepare` refuses both or neither, and through any rewriting and any acceptances, the
kernel and OpenSSL read the same vectors, with the same bounds, at every step. -/
theorem submission_simulated (memory : { m : Bytes // m.length = INLINE_BYTES })
    (s : WriteSubmission) (rewrites : List Rewrite) (steps : List Acceptance) :
    (((build shortCapacity memory s).bind prepare).bind
        (rewrites.foldlM (rewrite shortCapacity))).bind (trace steps) =
      ((s.request.prepare).bind (rewrites.foldlM WriteRequest.rewrite)).bind
        (WriteRequest.trace steps) := by
  obtain ⟨r, hbuild, hstores, houtside, hne, hsent, hsent'⟩ := build_request shortCapacity memory.2 s
  rw [hbuild, Option.bind_some]
  by_cases hfits : s.request.parts.flatten.length ≤ sizeMax
  · obtain ⟨r₁, w₁, hr₁, hw₁, hprepared, -⟩ :=
      hstores.prepare houtside hne hfits rfl (hsent.trans hsent'.symm)
    obtain ⟨r₂, w₂, hr₂, hw₂, hprepared₂⟩ := hprepared.rewrites_lockstep shortCapacity rewrites
    rw [hr₁, hw₁, Option.bind_some, Option.bind_some, hr₂, hw₂, Option.bind_some, Option.bind_some]
    exact hprepared₂.exposes.trace hprepared₂.start steps
  · have hloop := hstores.prepareLoop_none le_rfl (by rw [List.take_length]; omega)
    rw [← hstores.partCount] at hloop
    have hnone : s.request.prepare = none := by
      unfold WriteRequest.prepare WriteRequest.content
      rw [if_pos (.inl (by omega))]
    have hnone' : r.prepare = none := by
      unfold StoredRequest.prepare
      rw [hloop]
    rw [hnone, hnone']
    rfl

end StoredRequest

end Eiows
