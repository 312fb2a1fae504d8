import Eiows.Receiver.Chunks

/-!
# The payloads that a receiver comes to

Of the bytes that it is given, a receiver looks at the payload of each frame whose header
has nothing wrong with it. How many payload bytes are there is decided by the announced
length and by where the bytes end.
-/

namespace Eiows

variable {Z : Zlib}

/-- The payload bytes of a frame that lie behind its header in `src`. -/
def FrameHeader.available (h : FrameHeader) (src : Bytes) : ℕ := min h.length (src.length - h.size)

namespace Receiver

/-- The payload of a frame is looked at: nothing is wrong with its header, and the frame
by itself is not too long. Whether its message is, is found out behind. -/
def enters (r : Receiver Z) (h : FrameHeader) : Bool :=
  !(h.malformed || r.badCompression h || r.outOfSequence h ||
    (h.isData && payloadLimit r.maxPayload < h.length))

/-- A receiver that reads `src` comes to a frame of which `n` payload bytes are there. -/
inductive Unmasks : Receiver Z → Bytes → ℕ → Prop
  | frame {r : Receiver Z} {src : Bytes} {h : FrameHeader} (receiverOpen : r.closing = false)
      (parsed : parseHeader src = some h) (enters : r.enters h = true) :
      Unmasks r src (h.available src)
  | later {r r' : Receiver Z} {src : Bytes} {es : List Event} {k n : ℕ}
      (next : (decoder Z).next r src = some (r', es, k)) (rest : Unmasks r' (src.drop k) n) :
      Unmasks r src n

/-- The same for the frames that begin in `data`, behind the bytes `pending` of a frame
that was begun before. -/
def Begins (r : Receiver Z) (pending data : Bytes) (n : ℕ) : Prop :=
  if pending = [] then r.Unmasks data n
  else ∃ r' es k, (decoder Z).next r (pending ++ data) = some (r', es, k) ∧
    r'.Unmasks ((pending ++ data).drop k) n

variable {r : Receiver Z} {src : Bytes} {h : FrameHeader} {n : ℕ}

theorem enters_iff : r.enters h = true ↔ h.malformed = false ∧ r.badCompression h = false ∧
    r.outOfSequence h = false ∧ ¬(h.isData = true ∧ payloadLimit r.maxPayload < h.length) := by
  simp only [enters, Bool.not_eq_true', Bool.or_eq_false_iff, Bool.and_eq_false_iff,
    decide_eq_false_iff_not, not_and_or, Bool.not_eq_true, and_assoc]

/-- A frame that is not entered is refused by its header. -/
theorem judgeHeader_of_not_enters (h' : r.enters h = false) : ∃ code, r.judgeHeader h = some code := by
  cases hjudge : r.judgeHeader h with
  | some code => exact ⟨code, rfl⟩
  | none =>
    obtain ⟨hvalid, hcompression, hsequence, hlimit⟩ := judgeHeader_eq_none.mp hjudge
    have henters : r.enters h = true := by
      refine enters_iff.mpr ⟨hvalid, hcompression, hsequence, ?_⟩
      rintro ⟨hdata, hlong⟩
      simp only [tooLong, hdata, Bool.true_and, decide_eq_false_iff_not] at hlimit
      omega
    exact absurd (h'.symm.trans henters) (by decide)

theorem Unmasks.receiverOpen (hn : r.Unmasks src n) : r.closing = false := by
  cases hn with
  | frame hopen _ _ => exact hopen
  | later hnext _ =>
    by_contra hclosing
    have hclosing : r.closing = true := by simpa using hclosing
    have hnone : (decoder Z).next r src = none := by
      change Receiver.next r src = none
      rw [Receiver.next, if_pos hclosing]
    rw [hnone] at hnext
    cases hnext

theorem Unmasks.le (hn : r.Unmasks src n) : n ≤ src.length := by
  induction hn with
  | frame _ _ _ =>
    unfold FrameHeader.available
    omega
  | later _ _ ih =>
    rw [List.length_drop] at ih
    omega

theorem not_unmasks_of_incomplete (hparse : parseHeader src = none) : ¬r.Unmasks src n := by
  intro hn
  cases hn with
  | frame _ hparsed _ => rw [hparse] at hparsed; cases hparsed
  | later hnext _ => rw [next_of_incomplete hparse] at hnext; cases hnext

/-- At a complete header: the frame itself, or those behind it. -/
theorem unmasks_iff (hopen : r.closing = false) (hparse : parseHeader src = some h) :
    r.Unmasks src n ↔ r.enters h = true ∧ n = h.available src ∨
      ∃ r' es k, (decoder Z).next r src = some (r', es, k) ∧ r'.Unmasks (src.drop k) n := by
  constructor
  · intro hn
    cases hn with
    | frame _ hparsed henters =>
      cases hparse.symm.trans hparsed
      exact .inl ⟨henters, rfl⟩
    | later hnext hrest => exact .inr ⟨_, _, _, hnext, hrest⟩
  · rintro (⟨henters, rfl⟩ | ⟨r', es, k, hnext, hrest⟩)
    · exact .frame hopen hparse henters
    · exact .later hnext hrest

/-- Behind a unit that ends the receiver nothing is looked at. -/
theorem not_unmasks_behind {delivered : Receiver Z × List Event} {k : ℕ}
    (hnext : (decoder Z).next r src = some (delivered.1, delivered.2, k))
    (hended : delivered.1.closing = true) :
    ¬∃ r' es k, (decoder Z).next r src = some (r', es, k) ∧ r'.Unmasks (src.drop k) n := by
  rintro ⟨r', es, k', hnext', hrest⟩
  cases hnext.symm.trans hnext'
  exact absurd (hended.symm.trans hrest.receiverOpen) (by decide)

/-- Behind the first unit the frames that begin are those that follow it. -/
theorem begins_of_next {pending data : Bytes} {r' : Receiver Z} {es : List Event} {k : ℕ}
    (hne : pending ≠ []) (hnext : (decoder Z).next r (pending ++ data) = some (r', es, k)) :
    r.Begins pending data n ↔ r'.Unmasks ((pending ++ data).drop k) n := by
  rw [Begins, if_neg hne]
  refine ⟨?_, fun hn => ⟨r', es, k, hnext, hn⟩⟩
  rintro ⟨r'', es', k', hnext', hn⟩
  cases hnext.symm.trans hnext'
  exact hn

/-- Inside the first unit no frame begins. -/
theorem not_begins_of_part {pending data : Bytes} (hne : pending ≠ [])
    (hnone : (decoder Z).next r (pending ++ data) = none) : ¬r.Begins pending data n := by
  rw [Begins, if_neg hne]
  rintro ⟨r', es, k, hnext, -⟩
  rw [hnone] at hnext
  cases hnext

/-- A unit is at least as long as its header. -/
theorem size_le_of_next {r' : Receiver Z} {es : List Event} {k : ℕ} (hparse : parseHeader src = some h)
    (hnext : (decoder Z).next r src = some (r', es, k)) : h.size ≤ k := by
  have hunit : Receiver.next r src = some (r', es, k) := hnext
  unfold Receiver.next at hunit
  cases hjudge : r.judgeHeader h with
  | some code =>
    simp only [hparse, hjudge] at hunit
    split_ifs at hunit
    cases hunit
    exact le_rfl
  | none =>
    simp only [hparse, hjudge] at hunit
    split_ifs at hunit
    cases hunit
    exact Nat.le_add_right _ _

end Receiver

section Reads

variable {w : WebSocketState} {s : Session Z} {r : Receiver Z} {pending : Bytes}
  {h : FrameHeader} {n : ℕ}

/-- Saved bytes are all that is pending. -/
theorem Reads.saved (hreads : Reads w s r pending) (hspill : w.spill ≠ []) :
    w.wantsHead = true ∧ pending = w.spill ∧ parseHeader w.spill = none := by
  cases hreads with
  | header hwants hpending hparse hw hs hr => exact ⟨hwants, hpending.symm, hpending ▸ hparse⟩
  | payload h hwants hnone hparse hok part hrest hproper hremaining hmask hw hs hr =>
    exact absurd hnone hspill

/-- Of the frames that begin in a chunk, no part is longer than the chunk. -/
theorem Reads.begins_le {data : Bytes} (hreads : Reads w s r pending)
    (hn : r.Begins pending data n) : n ≤ data.length := by
  by_cases hempty : pending = []
  · rw [Receiver.Begins, if_pos hempty] at hn
    exact hn.le
  cases hnext : (Receiver.decoder Z).next r (pending ++ data) with
  | none => exact absurd hn (Receiver.not_begins_of_part hempty hnext)
  | some unit =>
    obtain ⟨r', es, k⟩ := unit
    have hle := ((Receiver.begins_of_next hempty hnext).mp hn).le
    have hbehind : pending.length ≤ k := by
      cases hreads with
      | header hwants hspill hnone hw hs hr =>
        cases hparse : parseHeader (pending ++ data) with
        | none =>
          rw [Receiver.next_of_incomplete hparse] at hnext
          cases hnext
        | some h =>
          have hheader := length_lt_of_parseHeader hnone hparse
          have hunit := Receiver.size_le_of_next hparse hnext
          omega
      | payload h hwants hspill hparse hok part hrest hproper hremaining hmask hw hs hr =>
        have hparse' := parseHeader_append data hparse
        rw [hrest, List.length_drop] at hproper
        by_cases hwhole : h.size + h.length ≤ (pending ++ data).length
        · rw [Receiver.next_of_whole hs.receiverOpen hparse' hok hwhole] at hnext
          cases hnext
          omega
        · rw [Receiver.next_of_part hparse' hok (Nat.lt_of_not_le hwhole)] at hnext
          cases hnext
    rw [List.length_drop, List.length_append] at hle
    omega

/-- Where no byte of a frame is pending, the parser is between frames. -/
theorem Reads.between (hreads : Reads w s r []) : w.wantsHead = true ∧ w.spill = [] := by
  cases hreads with
  | header hwants hpending _ _ _ _ => exact ⟨hwants, hpending⟩
  | payload h _ _ hparse _ _ _ _ _ _ _ _ _ => cases hparse

/-- Where a header is pending and nothing else, its payload is awaited. -/
theorem Reads.inside (hreads : Reads w s r pending)
    (hparse : parseHeader pending = some h) (hsize : h.size = pending.length) :
    w.wantsHead = false ∧ w.spill = [] ∧ w.remainingBytes = h.length := by
  cases hreads with
  | header _ _ hnone _ _ _ =>
    rw [hnone] at hparse
    cases hparse
  | payload h' hwants hspill hparse' hok part hrest hproper hremaining hmask hw hs hr =>
    cases hparse.symm.trans hparse'
    refine ⟨hwants, hspill, ?_⟩
    rw [hremaining, hrest, List.length_drop, hsize, Nat.sub_self, Nat.sub_zero]

end Reads

end Eiows
