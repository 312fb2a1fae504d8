import Eiows.Protocol.Utf8

/-!
# The scan of `isValidUtf8`

`isValidUtf8` moves a pointer from the start of a text to its end, and skips
ASCII in words, in vector registers or byte by byte. Here every read is checked:
`none` stands for a read at or beyond the end of the text.
-/

namespace Eiows

/-- The ASCII skip that the build and the processor select. -/
inductive AsciiSkip where
  | portable
  | avx2
  | neon
  deriving DecidableEq

namespace Utf8Scan

/-- `*s`. -/
def readByte (data : Bytes) (s : ℕ) : Option UInt8 := data[s]?

/-- A load of `count` bytes at `s`. -/
def readBytes (data : Bytes) (s count : ℕ) : Option Bytes :=
  if s + count ≤ data.length then some ((data.drop s).take count) else none

theorem readByte_lt {data : Bytes} {s : ℕ} {b : UInt8} (h : readByte data s = some b) :
    s < data.length :=
  (List.getElem?_eq_some_iff.mp h).1

theorem readByte_drop (data : Bytes) (s i : ℕ) : readByte data (s + i) = (data.drop s)[i]? :=
  List.getElem?_drop.symm

theorem drop_of_readByte {data : Bytes} {s : ℕ} {b : UInt8} (h : readByte data s = some b) :
    data.drop s = b :: data.drop (s + 1) := by
  rw [List.drop_eq_getElem_cons (readByte_lt h), (List.getElem?_eq_some_iff.mp h).2]

theorem readBytes_of_le {data : Bytes} {s count : ℕ} (h : s + count ≤ data.length) :
    readBytes data s count = some ((data.drop s).take count) := if_pos h

/-- `while (s != e && !(*s & 0x80)) s++`. -/
def skipAsciiBytes (data : Bytes) (s : ℕ) : Option ℕ :=
  if s = data.length then some s
  else
    match _hread : readByte data s with
    | none => none
    | some b => if isAscii b then skipAsciiBytes data (s + 1) else some s
  termination_by data.length - s
  decreasing_by
    have hlt := readByte_lt _hread
    omega

/-- `_mm256_movemask_epi8`: bit `i` is the highest bit of byte `i`. -/
def movemask : Bytes → ℕ
  | [] => 0
  | b :: input => (if isAscii b then 0 else 1) + 2 * movemask input

/-- `__builtin_ctz`, of a mask that is not zero. -/
def countTrailingZeros (mask : ℕ) : ℕ :=
  if mask = 0 ∨ mask % 2 = 1 then 0 else countTrailingZeros (mask / 2) + 1
  termination_by mask
  decreasing_by omega

/-- `skipAsciiAvx2`. -/
def skipAsciiAvx2 (data : Bytes) (s : ℕ) : Option ℕ :=
  if s + 32 ≤ data.length then
    match readBytes data s 32 with
    | none => none
    | some input =>
      let highBits := movemask input
      if highBits ≠ 0 then some (s + countTrailingZeros highBits) else skipAsciiAvx2 data (s + 32)
  else skipAsciiBytes data s
  termination_by data.length - s

/-- `vmaxvq_u8(input) & 0x80`. -/
def anyHighBit (input : Bytes) : Bool := !isAscii (input.foldr max 0)

/-- The loop of `skipAsciiNeon` over one register. -/
def skipAscii16 (data : Bytes) (s : ℕ) : Option ℕ :=
  if s + 16 ≤ data.length then
    match readBytes data s 16 with
    | none => none
    | some input => if anyHighBit input then skipAsciiBytes data s else skipAscii16 data (s + 16)
  else skipAsciiBytes data s
  termination_by data.length - s

/-- `vorrq_u8`. -/
def orLanes (left right : Bytes) : Bytes := List.zipWith (· ||| ·) left right

/-- `skipAsciiNeon`: four registers at a time, then one, then single bytes. -/
def skipAsciiNeon (data : Bytes) (s : ℕ) : Option ℕ :=
  if s + 64 ≤ data.length then
    match readBytes data s 16, readBytes data (s + 16) 16, readBytes data (s + 32) 16,
        readBytes data (s + 48) 16 with
    | some r0, some r1, some r2, some r3 =>
      if anyHighBit (orLanes (orLanes r0 r1) (orLanes r2 r3)) then skipAscii16 data s
      else skipAsciiNeon data (s + 64)
    | _, _, _, _ => none
  else skipAscii16 data s
  termination_by data.length - s

/-- The skip after four ASCII bytes at `s`. `AVX2_UTF8_ASCII_MIN_LENGTH` and
`NEON_UTF8_ASCII_MIN_LENGTH` are both 64. -/
def skipAscii (skip : AsciiSkip) (data : Bytes) (s : ℕ) : Option ℕ :=
  match skip with
  | .portable => some (s + 4)
  | .avx2 => if 64 ≤ data.length then skipAsciiAvx2 data s else some (s + 4)
  | .neon => if 64 ≤ data.length then skipAsciiNeon data s else some (s + 4)

/-- How an iteration of the main loop ends: with a verdict, or at the next `s`. -/
inductive Step where
  | accept
  | reject
  | next (s : ℕ)
  deriving DecidableEq

/-- The multi-byte branch at `s`. The guards `s + n >= e` come before the reads. -/
def stepMultibyte (data : Bytes) (s : ℕ) : Option Step := do
  let a ← readByte data s
  if a &&& 0x60 == 0x40 then
    if data.length ≤ s + 1 then some .reject
    else
      let b ← readByte data (s + 1)
      if !isTrail b || a &&& 0xfe == 0xc0 then some .reject else some (.next (s + 2))
  else if a &&& 0xf0 == 0xe0 then
    if data.length ≤ s + 2 then some .reject
    else
      let b ← readByte data (s + 1)
      let c ← readByte data (s + 2)
      if !isTrail b || !isTrail c || (a == 0xe0 && b &&& 0xe0 == 0x80) ||
          (a == 0xed && b &&& 0xe0 == 0xa0) then some .reject
      else some (.next (s + 3))
  else if a &&& 0xf8 == 0xf0 then
    if data.length ≤ s + 3 then some .reject
    else
      let b ← readByte data (s + 1)
      let c ← readByte data (s + 2)
      let d ← readByte data (s + 3)
      if !isTrail b || !isTrail c || !isTrail d || (a == 0xf0 && b &&& 0xf0 == 0x80) ||
          (a == 0xf4 && b > 0x8f) || a > 0xf4 then some .reject
      else some (.next (s + 4))
  else some .reject

/-- `while (!(*s & 0x80)) if (++s == e) return true`, and the multi-byte branch. -/
def stepBytes (data : Bytes) (s : ℕ) : Option Step :=
  match _hread : readByte data s with
  | none => none
  | some b =>
    if isAscii b then
      if s + 1 = data.length then some .accept else stepBytes data (s + 1)
    else stepMultibyte data s
  termination_by data.length - s
  decreasing_by
    have hlt := readByte_lt _hread
    omega

/-- The body of the main loop. -/
def step (skip : AsciiSkip) (data : Bytes) (s : ℕ) : Option Step :=
  if s + 4 ≤ data.length then
    match readBytes data s 4 with
    | none => none
    | some asciiWord =>
      if asciiWord.all isAscii then (skipAscii skip data s).map .next else stepBytes data s
  else stepBytes data s

/-- Where the run of ASCII bytes at `s` ends. -/
def asciiEnd (data : Bytes) (s : ℕ) : ℕ := s + ((data.drop s).takeWhile isAscii).length

variable {data : Bytes} {s s' : ℕ}

theorem asciiEnd_le (h : s ≤ data.length) : asciiEnd data s ≤ data.length := by
  have hfront := (List.takeWhile_prefix isAscii (l := data.drop s)).length_le
  rw [List.length_drop] at hfront
  unfold asciiEnd
  omega

theorem drop_asciiEnd (data : Bytes) (s : ℕ) :
    data.drop (asciiEnd data s) = (data.drop s).dropWhile isAscii := by
  rw [asciiEnd, ← List.drop_drop]
  generalize data.drop s = rest
  conv_lhs => arg 2; rw [← List.takeWhile_append_dropWhile (p := isAscii) (l := rest)]
  exact List.drop_left

/-- A block of ASCII bytes is a part of the run. -/
theorem asciiEnd_block {count : ℕ} (hlength : s + count ≤ data.length)
    (hblock : ((data.drop s).take count).all isAscii = true) :
    asciiEnd data s = asciiEnd data (s + count) := by
  have hcount : ((data.drop s).take count).length = count := by
    rw [List.length_take, List.length_drop]
    omega
  unfold asciiEnd
  conv_lhs => rw [← List.take_append_drop count (data.drop s)]
  rw [List.takeWhile_append_of_pos (List.all_eq_true.mp hblock), List.length_append, hcount,
    List.drop_drop]
  omega

/-- The run ends inside a block that is not ASCII. -/
theorem asciiEnd_stop {count : ℕ} (hblock : ¬((data.drop s).take count).all isAscii = true) :
    asciiEnd data s = s + (((data.drop s).take count).takeWhile isAscii).length := by
  unfold asciiEnd
  conv_lhs => rw [← List.take_append_drop count (data.drop s)]
  rw [List.takeWhile_append, if_neg]
  intro hlength
  have hfront := List.takeWhile_prefix isAscii (l := (data.drop s).take count)
  rw [← hfront.eq_of_length hlength] at hblock
  exact hblock List.all_takeWhile

theorem skipAsciiBytes_eq (h : s ≤ data.length) :
    skipAsciiBytes data s = some (asciiEnd data s) := by
  fun_induction skipAsciiBytes data s with
  | case1 => simp [asciiEnd]
  | case2 s hne hread =>
    have hlt : s < data.length := by omega
    rw [readByte, List.getElem?_eq_getElem hlt] at hread
    cases hread
  | case3 s hne b hread hascii ih =>
    have hlt := readByte_lt hread
    have hblock : ((data.drop s).take 1).all isAscii = true := by
      rw [List.drop_eq_getElem_cons hlt, (List.getElem?_eq_some_iff.mp hread).2]
      simpa using hascii
    rw [ih (by omega), asciiEnd_block (by omega) hblock]
  | case4 s hne b hread hascii =>
    have hlt := readByte_lt hread
    have hb := (List.getElem?_eq_some_iff.mp hread).2
    rw [asciiEnd, List.drop_eq_getElem_cons hlt, hb, List.takeWhile_cons_of_neg hascii]
    rfl

theorem movemask_eq_zero (input : Bytes) : movemask input = 0 ↔ input.all isAscii = true := by
  induction input with
  | nil => simp [movemask]
  | cons b input ih =>
    rw [movemask, List.all_cons, Bool.and_eq_true, ← ih]
    split <;> simp_all

/-- The lowest set bit belongs to the first byte that is not ASCII. -/
theorem countTrailingZeros_movemask {input : Bytes} (h : movemask input ≠ 0) :
    countTrailingZeros (movemask input) = (input.takeWhile isAscii).length := by
  induction input with
  | nil => exact absurd rfl h
  | cons b input ih =>
    rw [movemask] at h ⊢
    rw [countTrailingZeros]
    split_ifs at h ⊢ with hascii hodd hodd
    · omega
    · have hhalf : (0 + 2 * movemask input) / 2 = movemask input := by omega
      rw [hhalf, ih (by omega), List.takeWhile_cons_of_pos hascii, List.length_cons]
    · rw [List.takeWhile_cons_of_neg hascii, List.length_nil]
    · omega

theorem skipAsciiAvx2_eq (h : s ≤ data.length) :
    skipAsciiAvx2 data s = some (asciiEnd data s) := by
  fun_induction skipAsciiAvx2 data s with
  | case1 s hle hread => cases hread.symm.trans (readBytes_of_le hle)
  | case2 s hle input hread highBits hset =>
    cases hread.symm.trans (readBytes_of_le hle)
    rw [asciiEnd_stop (mt (movemask_eq_zero _).mpr hset), countTrailingZeros_movemask hset]
  | case3 s hle input hread highBits hclear ih =>
    cases hread.symm.trans (readBytes_of_le hle)
    rw [ih hle, asciiEnd_block hle ((movemask_eq_zero _).mp (not_not.mp hclear))]
  | case4 s hle => exact skipAsciiBytes_eq h

theorem isAscii_max (a b : UInt8) : isAscii (max a b) = (isAscii a && isAscii b) := by
  have hmax : max a b = if a ≤ b then b else a := rfl
  rw [Bool.eq_iff_iff, Bool.and_eq_true, isAscii_iff, isAscii_iff, isAscii_iff, hmax]
  split
  · next hle =>
    rw [UInt8.le_iff_toNat_le] at hle
    omega
  · next hlt =>
    rw [UInt8.le_iff_toNat_le] at hlt
    omega

theorem isAscii_or (a b : UInt8) : isAscii (a ||| b) = (isAscii a && isAscii b) := by
  rw [Bool.eq_iff_iff, Bool.and_eq_true, isAscii_iff, isAscii_iff, isAscii_iff, UInt8.toNat_or]
  constructor
  · intro h
    exact ⟨Nat.left_le_or.trans h, Nat.right_le_or.trans h⟩
  · rintro ⟨ha, hb⟩
    have hor : a.toNat ||| b.toNat < 2 ^ 7 := Nat.or_lt_two_pow (by omega) (by omega)
    omega

/-- The greatest lane has its high bit set when some lane has. -/
theorem anyHighBit_eq (input : Bytes) : anyHighBit input = !input.all isAscii := by
  unfold anyHighBit
  congr 1
  induction input with
  | nil => rfl
  | cons b input ih => rw [List.foldr_cons, isAscii_max, ih, List.all_cons]

theorem orLanes_all {left right : Bytes} (h : left.length = right.length) :
    (orLanes left right).all isAscii = (left.all isAscii && right.all isAscii) := by
  unfold orLanes
  induction left generalizing right with
  | nil =>
    rw [List.length_eq_zero_iff.mp h.symm]
    rfl
  | cons a left ih =>
    cases right with
    | nil => cases h
    | cons b right =>
      rw [List.zipWith_cons_cons, List.all_cons, List.all_cons, List.all_cons, isAscii_or,
        ih (Nat.succ.inj h)]
      ac_rfl

theorem orLanes_length {left right : Bytes} (h : left.length = right.length) :
    (orLanes left right).length = right.length := by
  rw [orLanes, List.length_zipWith, h, min_self]

/-- No lane of four registers has its high bit set. -/
theorem anyHighBit_four {r0 r1 r2 r3 : Bytes} (h0 : r0.length = r3.length)
    (h1 : r1.length = r3.length) (h2 : r2.length = r3.length)
    (hclear : ¬anyHighBit (orLanes (orLanes r0 r1) (orLanes r2 r3)) = true) :
    r0.all isAscii = true ∧ r1.all isAscii = true ∧ r2.all isAscii = true ∧
      r3.all isAscii = true := by
  have hlengths : (orLanes r0 r1).length = (orLanes r2 r3).length := by
    rw [orLanes_length (h0.trans h1.symm), orLanes_length h2, h1]
  rw [anyHighBit_eq, Bool.not_eq_true, Bool.not_eq_false', orLanes_all hlengths,
    orLanes_all (h0.trans h1.symm), orLanes_all h2] at hclear
  simpa [and_assoc] using hclear

theorem skipAscii16_eq (h : s ≤ data.length) : skipAscii16 data s = some (asciiEnd data s) := by
  fun_induction skipAscii16 data s with
  | case1 s hle hread => cases hread.symm.trans (readBytes_of_le hle)
  | case2 => exact skipAsciiBytes_eq h
  | case3 s hle input hread hclear ih =>
    cases hread.symm.trans (readBytes_of_le hle)
    rw [anyHighBit_eq, Bool.not_eq_true, Bool.not_eq_false'] at hclear
    rw [ih hle, asciiEnd_block hle hclear]
  | case4 => exact skipAsciiBytes_eq h

theorem skipAsciiNeon_eq (h : s ≤ data.length) :
    skipAsciiNeon data s = some (asciiEnd data s) := by
  fun_induction skipAsciiNeon data s with
  | case1 => exact skipAscii16_eq h
  | case2 s hle r0 r1 r2 r3 h0 h1 h2 h3 hclear ih =>
    cases h0.symm.trans (readBytes_of_le (by omega))
    cases h1.symm.trans (readBytes_of_le (by omega))
    cases h2.symm.trans (readBytes_of_le (by omega))
    cases h3.symm.trans (readBytes_of_le (by omega))
    have hlength : ∀ i, i + 16 ≤ data.length → ((data.drop i).take 16).length = 16 := by
      intro i hi
      rw [List.length_take, List.length_drop]
      omega
    have hlast := (hlength (s + 48) (by omega)).symm
    obtain ⟨hall0, hall1, hall2, hall3⟩ := anyHighBit_four ((hlength s (by omega)).trans hlast)
      ((hlength (s + 16) (by omega)).trans hlast) ((hlength (s + 32) (by omega)).trans hlast) hclear
    rw [ih hle, asciiEnd_block (by omega) hall0, asciiEnd_block (by omega) hall1,
      asciiEnd_block (by omega) hall2, asciiEnd_block (by omega) hall3]
  | case3 s hle hread =>
    exact absurd (readBytes_of_le (by omega)) fun h3 => hread _ _ _ _ (readBytes_of_le (by omega))
      (readBytes_of_le (by omega)) (readBytes_of_le (by omega)) h3
  | case4 => exact skipAscii16_eq h

/-- Every skip moves over ASCII bytes only, and over the four bytes just read. -/
theorem skipAscii_spec (skip : AsciiSkip) (hlength : s + 4 ≤ data.length)
    (hword : ((data.drop s).take 4).all isAscii = true) :
    ∃ s', skipAscii skip data s = some s' ∧ s + 4 ≤ s' ∧ s' ≤ data.length ∧
      (WellFormedUtf8 (data.drop s) ↔ WellFormedUtf8 (data.drop s')) := by
  have hshort : WellFormedUtf8 (data.drop s) ↔ WellFormedUtf8 (data.drop (s + 4)) := by
    conv_lhs => rw [← List.take_append_drop 4 (data.drop s), List.drop_drop]
    exact wellFormedUtf8_ascii_append hword
  have hlong : s + 4 ≤ asciiEnd data s ∧ asciiEnd data s ≤ data.length ∧
      (WellFormedUtf8 (data.drop s) ↔ WellFormedUtf8 (data.drop (asciiEnd data s))) := by
    refine ⟨?_, asciiEnd_le (by omega), ?_⟩
    · rw [asciiEnd_block hlength hword]
      exact Nat.le_add_right _ _
    · rw [drop_asciiEnd]
      exact wellFormedUtf8_dropWhile _
  unfold skipAscii
  cases skip with
  | portable => exact ⟨s + 4, rfl, le_rfl, hlength, hshort⟩
  | avx2 =>
    simp only [skipAsciiAvx2_eq (show s ≤ data.length by omega)]
    split
    · exact ⟨_, rfl, hlong⟩
    · exact ⟨s + 4, rfl, le_rfl, hlength, hshort⟩
  | neon =>
    simp only [skipAsciiNeon_eq (show s ≤ data.length by omega)]
    split
    · exact ⟨_, rfl, hlong⟩
    · exact ⟨s + 4, rfl, le_rfl, hlength, hshort⟩

/-- The multi-byte branch is that of the list of the remaining bytes. -/
theorem stepMultibyte_eq {a : UInt8} {rest : Bytes} (h : data.drop s = a :: rest) :
    stepMultibyte data s = some (match skipMultibyte (a :: rest) with
      | none => .reject
      | some t => .next (data.length - t.length)) := by
  have hlength : data.length = s + (rest.length + 1) := by
    have hdrop := congrArg List.length h
    rw [List.length_drop, List.length_cons] at hdrop
    omega
  have hread : readByte data s = some a := by
    have hhead := readByte_drop data s 0
    rwa [h] at hhead
  unfold stepMultibyte skipMultibyte
  simp only [hread, readByte_drop, h, Option.bind_eq_bind, Option.bind_some, hlength]
  split
  · cases rest with
    | nil => exact if_pos (by simp)
    | cons b t =>
      rw [if_neg (by simp)]
      simp only [List.getElem?_cons_succ, List.getElem?_cons_zero, Option.bind_some]
      split
      · rfl
      · simp only [Option.some.injEq, Step.next.injEq, List.length_cons]
        omega
  split
  · match rest with
    | [] => exact if_pos (by simp)
    | [b] => exact if_pos (by simp)
    | b :: c :: t =>
      rw [if_neg (by simp)]
      simp only [List.getElem?_cons_succ, List.getElem?_cons_zero, Option.bind_some]
      split
      · rfl
      · simp only [Option.some.injEq, Step.next.injEq, List.length_cons]
        omega
  split
  · match rest with
    | [] => exact if_pos (by simp)
    | [b] => exact if_pos (by simp)
    | [b, c] => exact if_pos (by simp)
    | b :: c :: d :: t =>
      rw [if_neg (by simp)]
      simp only [List.getElem?_cons_succ, List.getElem?_cons_zero, Option.bind_some]
      split
      · rfl
      · simp only [Option.some.injEq, Step.next.injEq, List.length_cons]
        omega
  · rfl

/-- What the end of an iteration at `s` says about the text from `s` on. -/
def Step.Judges (data : Bytes) (s : ℕ) : Step → Prop
  | .accept => WellFormedUtf8 (data.drop s)
  | .reject => ¬WellFormedUtf8 (data.drop s)
  | .next s' => s < s' ∧ s' ≤ data.length ∧
      (WellFormedUtf8 (data.drop s) ↔ WellFormedUtf8 (data.drop s'))

theorem stepMultibyte_judges {a : UInt8} {rest : Bytes} (h : data.drop s = a :: rest)
    (ha : ¬isAscii a = true) : ∃ r, stepMultibyte data s = some r ∧ r.Judges data s := by
  have hmultibyte := wellFormedUtf8_multibyte (s := rest) ha
  have hlength : data.length = s + (rest.length + 1) := by
    have hdrop := congrArg List.length h
    rw [List.length_drop, List.length_cons] at hdrop
    omega
  refine ⟨_, stepMultibyte_eq h, ?_⟩
  cases hskip : skipMultibyte (a :: rest) with
  | none =>
    rw [hskip] at hmultibyte
    simpa [Step.Judges, h] using hmultibyte
  | some t =>
    rw [hskip] at hmultibyte
    have hshorter := skipMultibyte_length hskip
    rw [List.length_cons] at hshorter
    have hrest : data.drop (data.length - t.length) = t := by
      obtain ⟨sequence, hsequence⟩ := skipMultibyte_suffix hskip
      have hsplit : data = (data.take s ++ sequence) ++ t := by
        rw [List.append_assoc, hsequence, ← h, List.take_append_drop]
      have hcut : data.length - t.length = (data.take s ++ sequence).length := by
        conv_lhs => rw [hsplit, List.length_append]
        exact Nat.add_sub_cancel ..
      rw [hcut]
      conv_lhs => arg 2; rw [hsplit]
      exact List.drop_left
    refine ⟨by omega, by omega, ?_⟩
    rw [h, hrest]
    simpa using hmultibyte

theorem stepBytes_judges (h : s < data.length) :
    ∃ r, stepBytes data s = some r ∧ r.Judges data s := by
  fun_induction stepBytes data s with
  | case1 s hread =>
    rw [readByte, List.getElem?_eq_getElem h] at hread
    cases hread
  | case2 s b hread hascii hend =>
    refine ⟨.accept, rfl, ?_⟩
    rw [Step.Judges, drop_of_readByte hread, wellFormedUtf8_ascii_cons hascii, hend,
      List.drop_length]
    exact .nil
  | case3 s b hread hascii hmore ih =>
    obtain ⟨r, hstep, hjudges⟩ := ih (by omega)
    have hascii := wellFormedUtf8_ascii_cons (s := data.drop (s + 1)) hascii
    refine ⟨r, hstep, ?_⟩
    cases r with
    | accept => rwa [Step.Judges, drop_of_readByte hread, hascii]
    | reject => rwa [Step.Judges, drop_of_readByte hread, hascii]
    | next s' =>
      obtain ⟨hlt, hle, hiff⟩ := hjudges
      exact ⟨by omega, hle, by rw [drop_of_readByte hread, hascii, hiff]⟩
  | case4 s b hread hascii => exact stepMultibyte_judges (drop_of_readByte hread) hascii

/-- An iteration reads inside the text only. It ends with the right verdict, or
further on. -/
theorem step_judges (skip : AsciiSkip) (h : s < data.length) :
    ∃ r, step skip data s = some r ∧ r.Judges data s := by
  unfold step
  split
  · next hlength =>
    rw [readBytes_of_le hlength]
    simp only
    split
    · next hword =>
      obtain ⟨s', hskip, hlt, hle, hiff⟩ := skipAscii_spec skip hlength hword
      exact ⟨.next s', by rw [hskip]; rfl, by omega, hle, hiff⟩
    · exact stepBytes_judges h
  · exact stepBytes_judges h

theorem step_next {skip : AsciiSkip} (h : step skip data s = some (.next s')) :
    s < s' ∧ s' ≤ data.length := by
  by_cases hs : s < data.length
  · obtain ⟨r, hstep, hjudges⟩ := step_judges skip hs
    cases h.symm.trans hstep
    exact ⟨hjudges.1, hjudges.2.1⟩
  · have hread : readByte data s = none := List.getElem?_eq_none (Nat.not_lt.mp hs)
    rw [step, if_neg (by omega), stepBytes] at h
    split at h
    · cases h
    · next b hb => cases hread.symm.trans hb

/-- The main loop of `isValidUtf8`, from `s` on. -/
def isValidUtf8From (skip : AsciiSkip) (data : Bytes) (s : ℕ) : Option Bool :=
  if s = data.length then some true
  else
    match _hstep : step skip data s with
    | none => none
    | some .accept => some true
    | some .reject => some false
    | some (.next s') => isValidUtf8From skip data s'
  termination_by data.length - s
  decreasing_by
    have hnext := step_next _hstep
    omega

/-- `isValidUtf8`. -/
def isValidUtf8 (skip : AsciiSkip) (data : Bytes) : Option Bool := isValidUtf8From skip data 0

theorem isValidUtf8From_eq (skip : AsciiSkip) (h : s ≤ data.length) :
    isValidUtf8From skip data s = some (decide (WellFormedUtf8 (data.drop s))) := by
  fun_induction isValidUtf8From skip data s with
  | case1 =>
    rw [List.drop_length, decide_eq_true .nil]
  | case2 s hne hstep =>
    obtain ⟨r, hr, -⟩ := step_judges skip (lt_of_le_of_ne h hne)
    cases hstep.symm.trans hr
  | case3 s hne hstep =>
    obtain ⟨r, hr, hjudges⟩ := step_judges skip (lt_of_le_of_ne h hne)
    cases hstep.symm.trans hr
    rw [Step.Judges] at hjudges
    rw [decide_eq_true hjudges]
  | case4 s hne hstep =>
    obtain ⟨r, hr, hjudges⟩ := step_judges skip (lt_of_le_of_ne h hne)
    cases hstep.symm.trans hr
    rw [Step.Judges] at hjudges
    rw [decide_eq_false hjudges]
  | case5 s hne s' hstep ih =>
    obtain ⟨r, hr, hjudges⟩ := step_judges skip (lt_of_le_of_ne h hne)
    cases hstep.symm.trans hr
    rw [ih hjudges.2.1, decide_eq_decide.mpr hjudges.2.2]

/-- With every form of the ASCII skip, `isValidUtf8` accepts exactly the
well-formed texts. It reads no byte at or beyond the end, and every iteration
advances. -/
theorem isValidUtf8_exact (skip : AsciiSkip) (data : Bytes) :
    isValidUtf8 skip data = some (decide (WellFormedUtf8 data)) ∧
      ∀ s s', step skip data s = some (.next s') → s < s' ∧ s' ≤ data.length := by
  refine ⟨?_, fun s s' => step_next⟩
  rw [isValidUtf8, isValidUtf8From_eq skip (Nat.zero_le _), List.drop_zero]

end Utf8Scan

end Eiows
