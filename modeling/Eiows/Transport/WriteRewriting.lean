import Eiows.Transport.WriteStorage

/-!
# Building and rewriting requests

Parts are appended, prepared and joined. Each of these functions of the storage
does to the bytes what its counterpart does to a list of parts, whatever strings
it moves on the way.
-/

namespace Eiows

open Memory

namespace StoredRequest

variable (shortCapacity : ℕ)

section
variable {r : StoredRequest} {ds : List Bytes} {d : Bytes} {w : WriteRequest}

/-! ### Building requests -/

/-- A request that `prepare` accepts and the rewriting functions may rewrite. -/
structure Prepared (r : StoredRequest) (w : WriteRequest) : Prop where
  exposes : r.Exposes w
  stores : r.Stores w.parts
  outside : w.parts.length ≤ 1 ∨ r.Outside
  fits : w.content.length ≤ sizeMax
  nonempty : w.parts ≠ []
  start : w.At 0

theorem part_relocated {address : ℕ} {parts : List InputPart} (i : ℕ) :
    (relocate shortCapacity address parts)[i]? =
      (parts[i]?).map (InputPart.moveTo shortCapacity (address + i)) := by
  induction parts generalizing address i with
  | nil => rfl
  | cons p rest ih =>
    cases i with
    | zero => rfl
    | succ i =>
      rw [relocate, List.getElem?_cons_succ, List.getElem?_cons_succ, ih]
      rw [Nat.add_assoc, Nat.add_comm 1]

theorem relocate_length (address : ℕ) (parts : List InputPart) :
    (relocate shortCapacity address parts).length = parts.length := by
  induction parts generalizing address with
  | nil => rfl
  | cons p rest ih => rw [relocate, List.length_cons, List.length_cons, ih]

@[simp] theorem grow_inlineParts (r : StoredRequest) :
    (r.grow shortCapacity).inlineParts = r.inlineParts := by
  unfold grow
  split_ifs <;> rfl

@[simp] theorem grow_inlineBytes (r : StoredRequest) :
    (r.grow shortCapacity).inlineBytes = r.inlineBytes := by
  unfold grow
  split_ifs <;> rfl

@[simp] theorem grow_extraParts_length (r : StoredRequest) :
    (r.grow shortCapacity).extraParts.length = r.extraParts.length := by
  unfold grow
  split_ifs
  · rfl
  · exact relocate_length shortCapacity _ _

/-- Growing moves parts or leaves them. -/
theorem part_grow (r : StoredRequest) (i : ℕ) :
    (r.grow shortCapacity).part i = r.part i ∨
      ∃ address, (r.grow shortCapacity).part i = (r.part i).moveTo shortCapacity address := by
  unfold grow part
  by_cases h0 : i = 0
  · left
    split_ifs <;> rfl
  · by_cases h1 : i = 1
    · left
      split_ifs <;> rfl
    · simp only [if_neg h0, if_neg h1]
      split_ifs with hroom
      · exact .inl rfl
      · simp only [List.getD_eq_getElem?_getD, part_relocated]
        cases r.extraParts[i - 2]? with
        | none => exact .inl rfl
        | some p => exact .inr ⟨_, rfl⟩

/-- The appended part. -/
theorem part_appendPart_self (hextra : r.extraParts.length = r.partCount - 2)
    (hclean : r.part r.partCount = {}) (fill : InputPart → InputPart) :
    (r.appendPart shortCapacity fill).part r.partCount = fill {} := by
  unfold appendPart
  by_cases h0 : r.partCount = 0
  · rw [h0] at hclean
    have hslot : r.inlineParts.1 = {} := hclean
    simp [h0, part, hslot]
  · by_cases h1 : r.partCount = 1
    · rw [h1] at hclean
      have hslot : r.inlineParts.2 = {} := hclean
      simp [h1, part, hslot]
    · have hlength := grow_extraParts_length shortCapacity r
      simp only [if_neg h0, if_neg h1, part, List.getD_eq_getElem?_getD]
      rw [List.getElem?_append_right (by omega), show r.partCount - 2 -
        (r.grow shortCapacity).extraParts.length = 0 by omega]
      rfl

/-- Appending leaves the other parts, up to moves. -/
theorem part_appendPart_ne (hextra : r.extraParts.length = r.partCount - 2)
    (fill : InputPart → InputPart) {i : ℕ} (hi : i ≠ r.partCount) :
    (r.appendPart shortCapacity fill).part i = r.part i ∨
      i < r.partCount ∧ ∃ address, (r.appendPart shortCapacity fill).part i =
        (r.part i).moveTo shortCapacity address := by
  unfold appendPart
  by_cases h0 : r.partCount = 0
  · left
    have hne : i ≠ 0 := by omega
    simp [h0, part, hne]
  · by_cases h1 : r.partCount = 1
    · left
      have hne : i ≠ 1 := by omega
      simp [h1, part, hne]
    · have hlength := grow_extraParts_length shortCapacity r
      simp only [if_neg h0, if_neg h1]
      by_cases hlt : i < r.partCount
      · have hsame : ({ r.grow shortCapacity with
            extraParts := (r.grow shortCapacity).extraParts ++ [fill {}]
            partCount := r.partCount + 1 } : StoredRequest).part i =
            (r.grow shortCapacity).part i := by
          unfold part
          split_ifs with hi0 hi1
          · rfl
          · rfl
          · simp only [List.getD_eq_getElem?_getD]
            rw [List.getElem?_append_left (by omega)]
        rw [hsame]
        obtain hgrown | hgrown := part_grow shortCapacity r i
        · exact .inl hgrown
        · exact .inr ⟨hlt, hgrown⟩
      · left
        have hi0 : i ≠ 0 := by omega
        have hi1 : i ≠ 1 := by omega
        have hend : ((r.grow shortCapacity).extraParts ++ [fill {}]).length ≤ i - 2 := by
          rw [List.length_append, List.length_singleton]
          omega
        simp only [part, if_neg hi0, if_neg hi1, List.getD_eq_getElem?_getD]
        rw [List.getElem?_eq_none hend, List.getElem?_eq_none (by omega)]

@[simp] theorem appendPart_partCount (fill : InputPart → InputPart) (r : StoredRequest) :
    (r.appendPart shortCapacity fill).partCount = r.partCount + 1 := by
  unfold appendPart
  split_ifs with h0 h1 <;> simp_all

@[simp] theorem appendPart_inlineBytes (fill : InputPart → InputPart) (r : StoredRequest) :
    (r.appendPart shortCapacity fill).inlineBytes = r.inlineBytes := by
  unfold appendPart
  split_ifs <;> simp

@[simp] theorem appendPart_sent (fill : InputPart → InputPart) (r : StoredRequest) :
    (r.appendPart shortCapacity fill).sent = r.sent := by
  unfold appendPart grow
  split_ifs <;> rfl

theorem appendPart_extraParts_length (hextra : r.extraParts.length = r.partCount - 2)
    (fill : InputPart → InputPart) :
    (r.appendPart shortCapacity fill).extraParts.length = r.partCount + 1 - 2 := by
  unfold appendPart
  split_ifs with h0 h1
  · simp only
    omega
  · simp only
    omega
  · simp only [List.length_append, grow_extraParts_length, List.length_singleton]
    omega

/-- One more part holds its bytes, and the others still hold theirs. -/
theorem Stores.appendPart (h : r.Stores ds) (fill : InputPart → InputPart)
    (hfill : (fill {}).Holds r.inlineBytes d) :
    (r.appendPart shortCapacity fill).Stores (ds ++ [d]) where
  partCount := by rw [appendPart_partCount, h.partCount, List.length_append, List.length_singleton]
  holds := by
    intro i e he
    rw [appendPart_inlineBytes]
    by_cases hi : i = r.partCount
    · subst hi
      rw [part_appendPart_self shortCapacity h.extra (h.clean _ le_rfl)]
      rw [h.partCount, List.getElem?_concat_length] at he
      cases he
      exact hfill
    · have hlt : i < ds.length := by
        have hsome := (List.getElem?_eq_some_iff.mp he).1
        rw [List.length_append, List.length_singleton] at hsome
        have hcount := h.partCount
        omega
      rw [List.getElem?_append_left hlt] at he
      obtain hsame | ⟨-, address, hmoved⟩ := part_appendPart_ne shortCapacity h.extra fill hi
      · rw [hsame]
        exact h.holds i e he
      · rw [hmoved]
        exact (h.holds i e he).moveTo shortCapacity address
  extra := by
    rw [appendPart_extraParts_length shortCapacity h.extra, appendPart_partCount]
  clean := by
    intro i hi
    rw [appendPart_partCount] at hi
    obtain hsame | ⟨hlt, -⟩ := part_appendPart_ne shortCapacity h.extra fill (by omega : i ≠ _)
    · rw [hsame]
      exact h.clean i (by omega)
    · omega
  memory := by rw [appendPart_inlineBytes]; exact h.memory

theorem Outside.appendPart (hextra : r.extraParts.length = r.partCount - 2)
    (hclean : r.part r.partCount = {}) (h : r.Outside) (fill : InputPart → InputPart)
    (hfill : ¬(fill {}).InRequest) : (r.appendPart shortCapacity fill).Outside := by
  intro i hi
  rw [appendPart_partCount] at hi
  by_cases hlast : i = r.partCount
  · rw [hlast, part_appendPart_self shortCapacity hextra hclean]
    exact hfill
  · have hold := h i (by omega)
    obtain hsame | ⟨-, address, hmoved⟩ := part_appendPart_ne shortCapacity hextra fill hlast
    · rw [hsame]
      exact hold
    · rw [hmoved]
      exact InputPart.not_inRequest_moveTo hold shortCapacity address

theorem fillOwned_holds (memory data : Bytes) (address : ℕ) :
    (fillOwned data address {}).Holds memory data := by
  unfold InputPart.Holds InputPart.view fillOwned
  by_cases hempty : data = []
  · simp [InputPart.repoint, hempty]
  · have hzero : data.length ≠ 0 := fun h => hempty (List.length_eq_zero_iff.mp h)
    simp [InputPart.repoint, hempty, Pointer.load, readRange, slice]

theorem fillOwned_outside (data : Bytes) (address : ℕ) :
    ¬(fillOwned data address {}).InRequest := by
  rintro ⟨offset, hpointer⟩
  unfold InputPart.repoint fillOwned at hpointer
  split_ifs at hpointer

/-- `addOwned` adds a part with these bytes. -/
theorem Stores.addOwned (h : r.Stores ds) (data : Bytes) :
    (r.addOwned shortCapacity data).Stores (ds ++ [data]) := by
  have hnext : ({ r with nextAddress := r.nextAddress + 1 } : StoredRequest).Stores ds :=
    { h with }
  exact hnext.appendPart shortCapacity _ (fillOwned_holds _ data _)

theorem Outside.addOwned (hstores : r.Stores ds) (h : r.Outside) (data : Bytes) :
    (r.addOwned shortCapacity data).Outside :=
  Outside.appendPart (r := { r with nextAddress := r.nextAddress + 1 }) shortCapacity
    hstores.extra (hstores.clean _ le_rfl) h _ (fillOwned_outside data _)

theorem clearParts_stores (hmemory : r.inlineBytes.length = INLINE_BYTES) :
    r.clearParts.Stores [] where
  partCount := rfl
  holds := by simp
  extra := rfl
  clean := by
    intro i _
    unfold part clearParts
    split_ifs <;> simp
  memory := hmemory

/-! ### Preparing -/

/-- The loop of `prepare` after some parts: their pointers are recomputed and
their bytes counted. -/
structure PreparedTo (r r' : StoredRequest) (ds : List Bytes) (n : ℕ) : Prop where
  part : ∀ i, r'.part i = if i < n then (r.part i).repoint else r.part i
  inlineBytes : r'.inlineBytes = r.inlineBytes
  partCount : r'.partCount = r.partCount
  extra : r'.extraParts.length = r.extraParts.length
  sent : r'.sent = r.sent
  bytes : r'.bytes = ((ds.take n).flatten).length
  cursorPart : r'.cursorPart = 0
  cursorOffset : r'.cursorOffset = 0

theorem length_take_succ_flatten {n : ℕ} (hd : ds[n]? = some d) :
    ((ds.take (n + 1)).flatten).length = ((ds.take n).flatten).length + d.length := by
  rw [List.take_add_one, hd, List.flatten_append, List.length_append]
  simp

theorem Stores.preparePart {r' : StoredRequest} {n : ℕ} (h : r.Stores ds)
    (hn : PreparedTo r r' ds n) (hd : ds[n]? = some d)
    (hfits : ((ds.take (n + 1)).flatten).length ≤ sizeMax) :
    ∃ r'', StoredRequest.preparePart r' n = some r'' ∧ PreparedTo r r'' ds (n + 1) := by
  have hlt : n < r.partCount := by
    rw [h.partCount]
    exact (List.getElem?_eq_some_iff.mp hd).1
  have hlt' : n < r'.partCount := by
    rw [hn.partCount]
    exact hlt
  have hextra : r'.extraParts.length = r'.partCount - 2 := by
    rw [hn.extra, hn.partCount]
    exact h.extra
  have hpart : r'.part n = r.part n := by rw [hn.part, if_neg (by omega)]
  have hlength := (h.holds n d hd).length
  rw [length_take_succ_flatten hd] at hfits
  refine ⟨{ r'.setPart n (r.part n).repoint with bytes := r'.bytes + (r.part n).length }, ?_, ?_⟩
  · unfold StoredRequest.preparePart
    simp only [hpart, InputPart.repoint_length]
    rw [if_neg (by rw [hn.bytes]; omega)]
  · constructor
    · intro i
      change (r'.setPart n (r.part n).repoint).part i = _
      rw [part_setPart hextra hlt', hn.part]
      by_cases hi : i = n
      · rw [if_pos hi, if_pos (by omega), hi]
      · rw [if_neg hi]
        by_cases hlt : i < n
        · rw [if_pos hlt, if_pos (by omega)]
        · rw [if_neg hlt, if_neg (by omega)]
    · simp [hn.inlineBytes]
    · simp [hn.partCount]
    · simp [hn.extra]
    · simp [hn.sent]
    · simp only [hn.bytes, length_take_succ_flatten hd, hlength]
    · simp [hn.cursorPart]
    · simp [hn.cursorOffset]

/-- The loop of `prepare`. -/
theorem Stores.prepareLoop (h : r.Stores ds) {n : ℕ}
    (hfits : ((ds.take n).flatten).length ≤ sizeMax) (hn : n ≤ ds.length) :
    ∃ r', (List.range n).foldlM StoredRequest.preparePart
        { r with bytes := 0, cursorPart := 0, cursorOffset := 0 } = some r' ∧
      PreparedTo r r' ds n := by
  induction n with
  | zero => exact ⟨_, rfl, ⟨fun i => rfl, rfl, rfl, rfl, rfl, rfl, rfl, rfl⟩⟩
  | succ n ih =>
    have hd := List.getElem?_eq_getElem (by omega : n < ds.length)
    have hlength := length_take_succ_flatten hd
    obtain ⟨r', hloop, hr'⟩ := ih (by omega) (by omega)
    obtain ⟨r'', hstep, hr''⟩ := h.preparePart hr' hd hfits
    refine ⟨r'', ?_, hr''⟩
    rw [List.range_succ, List.foldlM_append, hloop]
    simp [hstep]

/-- The loop of `prepare` refuses parts that are too long together. -/
theorem Stores.prepareLoop_none (h : r.Stores ds) {n : ℕ} (hn : n ≤ ds.length)
    (hlong : sizeMax < ((ds.take n).flatten).length) :
    (List.range n).foldlM StoredRequest.preparePart
      { r with bytes := 0, cursorPart := 0, cursorOffset := 0 } = none := by
  induction n with
  | zero => exact absurd hlong (Nat.not_lt_zero _)
  | succ n ih =>
    have hd := List.getElem?_eq_getElem (by omega : n < ds.length)
    rw [List.range_succ, List.foldlM_append]
    by_cases hfits : ((ds.take n).flatten).length ≤ sizeMax
    · obtain ⟨r', hloop, hr'⟩ := h.prepareLoop hfits (by omega)
      have hpart : r'.part n = r.part n := by rw [hr'.part, if_neg (by omega)]
      have hover : sizeMax < r'.bytes + (r.part n).length := by
        rw [length_take_succ_flatten hd, (h.holds n _ hd).length] at hlong
        rw [hr'.bytes]
        exact hlong
      simp [hloop, StoredRequest.preparePart, hpart, hover]
    · rw [ih (by omega) (by omega)]
      rfl

/-- Releasing an empty part leaves what the parts hold. -/
theorem Stores.release (h : r.Stores ds) {i : ℕ} (hi : i < r.partCount)
    (hempty : (r.part i).length = 0) : (r.release i).Stores ds where
  partCount := by simpa [StoredRequest.release] using h.partCount
  holds := by
    intro j e he
    unfold StoredRequest.release
    rw [part_setPart h.extra hi, setPart_inlineBytes]
    split_ifs with hij
    · subst hij
      have hlength := (h.holds j e he).length
      have hnil : e = [] := List.length_eq_zero_iff.mp (by omega)
      rw [hnil]
      rfl
    · exact h.holds j e he
  extra := by simpa [StoredRequest.release] using h.extra
  clean := by
    intro j hj
    unfold StoredRequest.release at hj ⊢
    rw [setPart_partCount] at hj
    rw [part_setPart h.extra hi, if_neg (by omega)]
    exact h.clean j hj
  memory := by simpa [StoredRequest.release] using h.memory

theorem Outside.release (h : r.Outside) (hextra : r.extraParts.length = r.partCount - 2) {i : ℕ}
    (hi : i < r.partCount) : (r.release i).Outside := by
  intro j hj
  unfold StoredRequest.release at hj ⊢
  rw [setPart_partCount] at hj
  rw [part_setPart hextra hi]
  split_ifs
  · rintro ⟨offset, hpointer⟩
    cases hpointer
  · exact h j hj

/-- Skipping empty parts leaves what the parts hold. -/
theorem Stores.skipEmptyParts (h : r.Stores ds) : r.skipEmptyParts.Stores ds := by
  fun_induction StoredRequest.skipEmptyParts r with
  | case1 r hcond ih =>
    apply ih
    have hreleased := h.release hcond.1 hcond.2
    exact { hreleased with }
  | case2 r hcond => exact h

theorem Outside.skipEmptyParts (h : r.Outside) (hstores : r.Stores ds) :
    r.skipEmptyParts.Outside := by
  fun_induction StoredRequest.skipEmptyParts r with
  | case1 r hcond ih =>
    have hreleased := hstores.release hcond.1 hcond.2
    exact ih (h.release hstores.extra hcond.1) { hreleased with }
  | case2 r hcond => exact h

theorem holds_repoint {memory : Bytes} {p : InputPart} (h : p.Holds memory d) :
    p.repoint.Holds memory d := by
  unfold InputPart.Holds at h ⊢
  rw [p.repoint_consistent.repoint]
  exact h

/-- A request whose parts hold bytes can be prepared, as its list of parts can. -/
theorem Stores.prepare (h : r.Stores ds) (houtside : ds.length ≤ 1 ∨ r.Outside) (hne : ds ≠ [])
    (hfits : ds.flatten.length ≤ sizeMax) (hw : w.parts = ds) (hsent : r.sent = w.sent) :
    ∃ r' w', r.prepare = some r' ∧ w.prepare = some w' ∧ r'.Prepared w' ∧
      w'.content = w.content := by
  obtain ⟨r₁, hloop, hr₁⟩ := h.prepareLoop (by rw [List.take_length]; exact hfits) le_rfl
  rw [← h.partCount] at hloop
  have hpart (i : ℕ) : r₁.part i = (r.part i).repoint := by
    rw [hr₁.part]
    split_ifs with hi
    · rfl
    · rw [h.clean i (by rw [h.partCount]; omega)]
      rfl
  have hcontent : w.content = ds.flatten := by rw [WriteRequest.content, hw]
  have hstores : r₁.Stores ds := by
    constructor
    · rw [hr₁.partCount, h.partCount]
    · intro i e he
      rw [hpart, hr₁.inlineBytes]
      exact holds_repoint (h.holds i e he)
    · rw [hr₁.extra, hr₁.partCount, h.extra]
    · intro i hi
      rw [hpart, h.clean i (by rw [← hr₁.partCount]; exact hi)]
      rfl
    · rw [hr₁.inlineBytes, h.memory]
  have hexposes : r₁.Exposes
      { w with bytes := w.content.length, cursorPart := 0, cursorOffset := 0 } := by
    constructor
    · rw [hw]
      exact hstores.partCount
    · exact hr₁.cursorPart
    · exact hr₁.cursorOffset
    · rw [hr₁.bytes, List.take_length]
      simp only [hcontent]
    · rw [hr₁.sent]
      exact hsent
    · intro i e _ he
      rw [hpart, hr₁.inlineBytes]
      rw [hw] at he
      exact h.holds i e he
    · intro i
      rw [hpart]
      exact InputPart.repoint_consistent _
    · exact hstores.extra
  have hcount : r₁.partCount ≠ 0 := by
    rw [hr₁.partCount, h.partCount]
    exact fun hzero => hne (List.length_eq_zero_iff.mp hzero)
  have hprepare : w.prepare = some { w with
      bytes := w.content.length, cursorPart := emptyParts w.parts, cursorOffset := 0 } := by
    unfold WriteRequest.prepare
    rw [if_neg]
    rintro (hlong | hnone)
    · rw [hcontent] at hlong
      omega
    · exact hne (hw.symm.trans hnone)
  refine ⟨r₁.skipEmptyParts, _, ?_, hprepare, ?_, rfl⟩
  · unfold StoredRequest.prepare
    rw [hloop]
    simp only [if_pos hcount]
  · have hskipped := hexposes.skipEmptyParts
    simp only [List.drop_zero, Nat.zero_add] at hskipped
    refine ⟨hskipped, ?_, ?_, ?_, ?_, (WriteRequest.prepare_spec hprepare).1⟩
    · rw [hw]
      exact hstores.skipEmptyParts
    · rcases houtside with hone | hall
      · left
        rw [hw]
        exact hone
      · right
        have hout : r₁.Outside := by
          intro i hi
          rw [hpart]
          rintro ⟨offset, hpointer⟩
          rw [(r.part i).repoint_consistent.repoint] at hpointer
          exact hall i (by rw [← hr₁.partCount]; exact hi) ⟨offset, hpointer⟩
        exact hout.skipEmptyParts hstores
    · change w.content.length ≤ sizeMax
      rw [hcontent]
      exact hfits
    · rw [hw]
      exact hne

/-! ### Joining parts -/

/-- Every part of a prepared request exposes its bytes. -/
theorem Prepared.view (h : r.Prepared w) {i : ℕ} (hd : w.parts[i]? = some d) :
    (r.part i).view r.inlineBytes = some d := by
  have hholds := h.stores.holds i d hd
  rwa [InputPart.Holds, (h.exposes.consistent i).repoint] at hholds

theorem Prepared.bytes (h : r.Prepared w) : r.bytes = w.content.length := by
  rw [h.exposes.bytes, h.start.bytes]

theorem take_succ_flatten {n : ℕ} (hd : ds[n]? = some d) :
    (ds.take (n + 1)).flatten = (ds.take n).flatten ++ d := by
  rw [List.take_add_one, hd, List.flatten_append]
  simp

theorem take_flatten_length_le (ds : List Bytes) (n : ℕ) :
    ((ds.take n).flatten).length ≤ ds.flatten.length := by
  conv_rhs => rw [← List.take_append_drop n ds, List.flatten_append, List.length_append]
  omega

/-- Copying parts into `inlineBytes` stores their bytes there. -/
theorem Prepared.copyInline (h : r.Prepared w) (houtside : r.Outside)
    (hfits : w.content.length ≤ INLINE_BYTES) {n : ℕ} (hn : n ≤ w.parts.length) :
    ∃ memory, (List.range n).foldlM copyPartInline (r, 0) =
        some ({ r with inlineBytes := memory }, ((w.parts.take n).flatten).length) ∧
      memory.length = INLINE_BYTES ∧
      memory.take ((w.parts.take n).flatten).length = (w.parts.take n).flatten := by
  induction n with
  | zero => exact ⟨r.inlineBytes, rfl, h.stores.memory, rfl⟩
  | succ n ih =>
    obtain ⟨memory, hloop, hlength, htake⟩ := ih (by omega)
    have hd := List.getElem?_eq_getElem (by omega : n < w.parts.length)
    have hholds := h.stores.holds n _ hd
    have hlt : n < r.partCount := by
      rw [h.stores.partCount]
      omega
    have hview : ((({ r with inlineBytes := memory } : StoredRequest)).part n).view memory =
        some w.parts[n] := by
      have hmoved := hholds.outside (houtside n hlt) memory
      rwa [InputPart.Holds, (h.exposes.consistent n).repoint] at hmoved
    have hroom := take_flatten_length_le w.parts (n + 1)
    rw [take_succ_flatten hd, List.length_append] at hroom
    have hinside : ((w.parts.take n).flatten).length + (w.parts[n]).length ≤ memory.length := by
      rw [hlength]
      exact le_trans hroom hfits
    refine ⟨overwrite memory ((w.parts.take n).flatten).length w.parts[n], ?_, ?_, ?_⟩
    · rw [List.range_succ, List.foldlM_append, hloop]
      simp [copyPartInline, hview, take_succ_flatten hd]
    · rw [overwrite_length hinside, hlength]
    · rw [take_succ_flatten hd, List.length_append, take_overwrite hinside, htake]

/-- Copying all parts joins their bytes. -/
theorem Prepared.copyAll (h : r.Prepared w) : r.copyAll = some w.content := by
  have hloop (n : ℕ) (hn : n ≤ w.parts.length) :
      (List.range n).foldlM (fun combined index =>
        ((r.part index).view r.inlineBytes).map (combined ++ ·)) ([] : Bytes) =
        some (w.parts.take n).flatten := by
    induction n with
    | zero => rfl
    | succ n ih =>
      have hd := List.getElem?_eq_getElem (by omega : n < w.parts.length)
      rw [List.range_succ, List.foldlM_append, ih (by omega)]
      simp [h.view hd, take_succ_flatten hd]
  rw [StoredRequest.copyAll, h.stores.partCount, hloop _ le_rfl, List.take_length]
  rfl

/-- A part at the start of `inlineBytes` holds what is stored there. -/
theorem inRequest_holds {memory data : Bytes} (hroom : data.length ≤ memory.length)
    (htake : memory.take data.length = data) :
    ({ pointer := .inlineBytes 0, length := data.length } : InputPart).Holds memory data := by
  unfold InputPart.Holds InputPart.view
  by_cases hempty : data = []
  · simp [InputPart.repoint, hempty]
  · have hzero : data.length ≠ 0 := fun h => hempty (List.length_eq_zero_iff.mp h)
    simp [InputPart.repoint, Pointer.load, readRange, slice, hzero, hroom, htake]

/-- Flattening joins the parts, as on the list of parts. -/
theorem Prepared.flatten (h : r.Prepared w) :
    ∃ r' w', r.flatten shortCapacity = some r' ∧ w.flatten = some w' ∧ r'.Prepared w' ∧
      w'.content = w.content := by
  unfold StoredRequest.flatten WriteRequest.flatten
  by_cases hone : r.partCount ≤ 1
  · rw [if_pos hone, if_pos (by rw [← h.stores.partCount]; exact hone)]
    exact ⟨r, w, rfl, rfl, h, rfl⟩
  · have hmany : ¬w.parts.length ≤ 1 := by
      rw [← h.stores.partCount]
      exact hone
    have houtside : r.Outside := h.outside.resolve_left hmany
    have hfits : ([w.content].flatten).length ≤ sizeMax := by
      rw [List.flatten_singleton]
      exact h.fits
    have hcontent : ({ w with parts := [w.content] } : WriteRequest).content = w.content := by
      simp [WriteRequest.content]
    rw [if_neg hone, if_neg hmany]
    by_cases hinline : r.bytes ≤ INLINE_BYTES
    · rw [h.bytes] at hinline
      obtain ⟨memory, hloop, hlength, htake⟩ :=
        h.copyInline houtside hinline h.stores.partCount.le
      rw [List.take_of_length_le h.stores.partCount.ge] at hloop htake
      have hcopy : r.copyInline =
          some ({ r with inlineBytes := memory }, w.content.length) := hloop
      rw [← h.bytes] at hinline
      rw [if_pos hinline, hcopy]
      have hfill : ({ pointer := .inlineBytes 0, length := w.content.length } : InputPart).Holds
          memory w.content := by
        apply inRequest_holds
        · rw [hlength, ← h.bytes]
          exact hinline
        · exact htake
      have hcleared : ({ r with inlineBytes := memory } : StoredRequest).clearParts.Stores [] :=
        clearParts_stores hlength
      have hstores := hcleared.appendPart shortCapacity
        (fun target =>
          { target with pointer := .inlineBytes 0, length := w.content.length }) hfill
      obtain ⟨r', w', hr', hw', hprepared, hsame⟩ :=
        hstores.prepare (.inl le_rfl) (by simp) hfits
          (w := { w with parts := [w.content] }) rfl (by simp [clearParts, h.exposes.sent])
      exact ⟨r', w', hr', hw', hprepared, hsame.trans hcontent⟩
    · rw [if_neg hinline, h.copyAll]
      have hcleared := clearParts_stores h.stores.memory
      have hstores := hcleared.addOwned shortCapacity w.content
      obtain ⟨r', w', hr', hw', hprepared, hsame⟩ :=
        hstores.prepare (.inl le_rfl) (by simp) hfits
          (w := { w with parts := [w.content] }) rfl
          (by simp [StoredRequest.addOwned, clearParts, h.exposes.sent])
      exact ⟨r', w', hr', hw', hprepared, hsame.trans hcontent⟩

/-- Copying the first bytes joins them. -/
theorem Prepared.copyPrefix (h : r.Prepared w) (prefixLength : ℕ) :
    r.copyPrefix prefixLength = some (w.content.take prefixLength) := by
  have hloop (n : ℕ) (hn : n ≤ w.parts.length) :
      (List.range n).foldlM (fun copied index =>
        let current := r.part index
        (current.pointer.load r.inlineBytes current.owned
          (min current.length (prefixLength - copied.length))).map (copied ++ ·)) ([] : Bytes) =
        some ((w.parts.take n).flatten.take prefixLength) := by
    induction n with
    | zero => simp
    | succ n ih =>
      have hd := List.getElem?_eq_getElem (by omega : n < w.parts.length)
      have hview := h.view hd
      have hlength := InputPart.view_length hview
      rw [List.range_succ, List.foldlM_append, ih (by omega), take_succ_flatten hd,
        List.take_append]
      generalize (w.parts.take n).flatten = copied
      generalize w.parts[n] = d at hview hlength
      have hload := Pointer.load_take hview (Nat.min_le_left (r.part n).length
        (prefixLength - (copied.take prefixLength).length))
      have hcount : d.take (min (r.part n).length
          (prefixLength - (copied.take prefixLength).length)) =
          d.take (prefixLength - copied.length) := by
        rw [List.take_eq_take_iff, List.length_take]
        omega
      rw [hcount] at hload
      simp only [List.foldlM_cons, List.foldlM_nil, Option.bind_eq_bind, Option.bind_some, hload,
        Option.map_some]
      rfl
  rw [StoredRequest.copyPrefix, h.stores.partCount, hloop _ le_rfl, List.take_length]
  rfl

/-- The parts behind the first bytes are appended, each with what is left of it. -/
theorem Stores.appendRest {parts : List InputPart} {rest : List Bytes} (h : r.Stores ds)
    (houtside : r.Outside)
    (hparts : List.Forall₂ (fun p d => p.Holds r.inlineBytes d ∧ ¬p.InRequest) parts rest)
    (consume : ℕ) :
    (appendRest shortCapacity consume parts r).Stores (ds ++ dropPrefix consume rest) ∧
      (appendRest shortCapacity consume parts r).Outside ∧
      (appendRest shortCapacity consume parts r).sent = r.sent := by
  generalize hmemory : r.inlineBytes = memory at hparts
  induction hparts generalizing r ds consume with
  | nil =>
    rw [dropPrefix, List.append_nil]
    exact ⟨h, houtside, rfl⟩
  | @cons p d parts rest hp hrest ih =>
    obtain ⟨hholds, hout⟩ := hp
    have hlength := hholds.length
    rw [StoredRequest.appendRest, dropPrefix]
    by_cases hpast : d.length ≤ consume
    · rw [if_pos (hlength ▸ hpast), if_pos hpast, ← hlength]
      exact ih h houtside _ hmemory
    · rw [if_neg (hlength ▸ hpast), if_neg hpast]
      have hcurrent : (if consume ≠ 0 then p.skip consume else p).Holds memory (d.drop consume) ∧
          ¬(if consume ≠ 0 then p.skip consume else p).InRequest := by
        split_ifs with hzero
        · exact ⟨hholds.skip (by omega), InputPart.not_inRequest_skip hout consume⟩
        · rw [not_not.mp hzero, List.drop_zero]
          exact ⟨hholds, hout⟩
      have hnext : ({ r with nextAddress := r.nextAddress + 1 } : StoredRequest).Stores ds :=
        { h with }
      have hmoved := hcurrent.1.moveTo shortCapacity r.nextAddress
      have hstores := hnext.appendPart shortCapacity (fun _ =>
        (if consume ≠ 0 then p.skip consume else p).moveTo shortCapacity r.nextAddress)
        (by rw [← hmemory] at hmoved; exact hmoved)
      have houter := Outside.appendPart shortCapacity hnext.extra (hnext.clean _ le_rfl) houtside
        (fun _ =>
          (if consume ≠ 0 then p.skip consume else p).moveTo shortCapacity r.nextAddress)
        (InputPart.not_inRequest_moveTo hcurrent.2 shortCapacity r.nextAddress)
      obtain ⟨hrest₁, hrest₂, hrest₃⟩ := ih hstores houter 0
        (by rw [appendPart_inlineBytes]; exact hmemory)
      rw [List.append_assoc] at hrest₁
      refine ⟨hrest₁, hrest₂, hrest₃.trans ?_⟩
      rw [appendPart_sent]

/-- The moved parts hold their bytes. -/
theorem Prepared.original (h : r.Prepared w) (houtside : r.Outside) (address : ℕ) :
    List.Forall₂ (fun p d => p.Holds r.inlineBytes d ∧ ¬p.InRequest)
      (relocate shortCapacity address ((List.range r.partCount).map r.part)) w.parts := by
  apply List.forall₂_iff_get.mpr
  have hcount := h.stores.partCount
  constructor
  · rw [relocate_length, List.length_map, List.length_range, hcount]
  · intro i hi hi'
    have hlt : i < r.partCount := by omega
    have hpart : (relocate shortCapacity address ((List.range r.partCount).map r.part))[i]? =
        some ((r.part i).moveTo shortCapacity (address + i)) := by
      rw [part_relocated, List.getElem?_map, List.getElem?_range hlt]
      rfl
    have hholds := h.stores.holds i _ (List.getElem?_eq_getElem hi')
    obtain ⟨_, hget⟩ := List.getElem?_eq_some_iff.mp hpart
    rw [List.get_eq_getElem, List.get_eq_getElem, hget]
    exact ⟨hholds.moveTo shortCapacity _,
      InputPart.not_inRequest_moveTo (houtside i hlt) shortCapacity _⟩

/-- Coalescing a prefix joins its bytes, as on the list of parts. -/
theorem Prepared.coalescePrefix (h : r.Prepared w) (prefixLength : ℕ) :
    ∃ r' w', r.coalescePrefix shortCapacity prefixLength = some r' ∧
      w.coalescePrefix prefixLength = some w' ∧ r'.Prepared w' ∧ w'.content = w.content := by
  unfold StoredRequest.coalescePrefix WriteRequest.coalescePrefix
  by_cases hflat : r.partCount ≤ 1 ∨ r.bytes ≤ prefixLength
  · rw [if_pos hflat, if_pos (by rw [← h.stores.partCount, ← h.exposes.bytes]; exact hflat)]
    exact h.flatten shortCapacity
  · rw [if_neg hflat, if_neg (by rw [← h.stores.partCount, ← h.exposes.bytes]; exact hflat)]
    have hlong : prefixLength < w.content.length := by
      rw [← h.bytes]
      omega
    have houtside : r.Outside := by
      apply h.outside.resolve_left
      rw [← h.stores.partCount]
      omega
    have hcopied : (w.content.take prefixLength).length = prefixLength := by
      rw [List.length_take]
      omega
    rw [h.copyPrefix]
    simp only [hcopied, ne_eq, not_true_eq_false, if_false]
    have hemptied : ({ r.clearParts with
        nextAddress := r.nextAddress + r.partCount } : StoredRequest).Stores [] :=
      { clearParts_stores h.stores.memory with }
    have hfirst := hemptied.addOwned shortCapacity (w.content.take prefixLength)
    have hfirst' := Outside.addOwned shortCapacity hemptied
      (fun i hi => absurd hi (Nat.not_lt_zero _)) (w.content.take prefixLength)
    have hparts := h.original shortCapacity houtside r.nextAddress
    obtain ⟨hstores, hout, hsent⟩ := hfirst.appendRest shortCapacity hfirst'
      (by simpa [StoredRequest.addOwned, clearParts] using hparts) prefixLength
    have hjoined : ([] ++ [w.content.take prefixLength] ++
        dropPrefix prefixLength w.parts).flatten = w.content := by
      simp only [List.nil_append, List.flatten_append, List.flatten_singleton, flatten_dropPrefix]
      exact List.take_append_drop _ _
    obtain ⟨r', w', hr', hw', hprepared, hsame⟩ := hstores.prepare (.inr hout) (by simp)
      (by rw [hjoined]; exact h.fits)
      (w := { w with parts := w.content.take prefixLength :: dropPrefix prefixLength w.parts })
      rfl (by rw [hsent]; simp [StoredRequest.addOwned, clearParts, h.exposes.sent])
    exact ⟨r', w', hr', hw', hprepared, hsame.trans hjoined⟩

end

end StoredRequest

end Eiows
