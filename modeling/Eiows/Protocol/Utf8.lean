import Eiows.Protocol.Masking
import Mathlib.Data.FinEnum

/-!
# Validation of UTF-8 text

`isValidUtf8` skips ASCII in words of four bytes and byte by byte, and tests one
multi-byte sequence at a time with bit masks. It accepts exactly the byte
sequences that the Unicode standard's table of well-formed sequences lists.
-/

namespace Eiows

/-- `!(*s & 0x80)`. -/
def isAscii (b : UInt8) : Bool := b &&& 0x80 == 0

/-- `(*s & 0xc0) == 0x80`. -/
def isTrail (b : UInt8) : Bool := b &&& 0xc0 == 0x80

/-- The multi-byte branch of `isValidUtf8`: the input after one sequence, or
`none` where the source returns `false`. -/
def skipMultibyte : Bytes → Option Bytes
  | [] => none
  | a :: s =>
    if a &&& 0x60 == 0x40 then
      match s with
      | b :: t => if !isTrail b || a &&& 0xfe == 0xc0 then none else some t
      | _ => none
    else if a &&& 0xf0 == 0xe0 then
      match s with
      | b :: c :: t =>
        if !isTrail b || !isTrail c || (a == 0xe0 && b &&& 0xe0 == 0x80) ||
            (a == 0xed && b &&& 0xe0 == 0xa0) then none
        else some t
      | _ => none
    else if a &&& 0xf8 == 0xf0 then
      match s with
      | b :: c :: d :: t =>
        if !isTrail b || !isTrail c || !isTrail d || (a == 0xf0 && b &&& 0xf0 == 0x80) ||
            (a == 0xf4 && b > 0x8f) || a > 0xf4 then none
        else some t
      | _ => none
    else none

/-- A multi-byte sequence is not empty. -/
theorem skipMultibyte_length {s t : Bytes} (h : skipMultibyte s = some t) :
    t.length < s.length := by
  unfold skipMultibyte at h
  repeat' split at h
  all_goals simp_all
  all_goals subst h
  all_goals omega

/-- What is left after a multi-byte sequence is the end of the input. -/
theorem skipMultibyte_suffix {s t : Bytes} (h : skipMultibyte s = some t) : t <:+ s := by
  unfold skipMultibyte at h
  repeat' split at h
  all_goals simp_all
  all_goals subst h
  · exact (List.suffix_cons _ _).trans (List.suffix_cons _ _)
  · exact (List.suffix_cons _ _).trans ((List.suffix_cons _ _).trans (List.suffix_cons _ _))
  · exact (List.suffix_cons _ _).trans ((List.suffix_cons _ _).trans
      ((List.suffix_cons _ _).trans (List.suffix_cons _ _)))

/-- `isValidUtf8` with the portable ASCII skip. -/
def isValidUtf8 (s : Bytes) : Bool :=
  if s = [] then true
  else if 4 ≤ s.length ∧ (s.take 4).all isAscii then isValidUtf8 (s.drop 4)
  else
    match _hrest : s.dropWhile isAscii with
    | [] => true
    | a :: rest =>
      match _hskip : skipMultibyte (a :: rest) with
      | none => false
      | some t => isValidUtf8 t
  termination_by s.length
  decreasing_by
    · simp only [List.length_drop]
      omega
    · have hskipLength := skipMultibyte_length _hskip
      have hsuffix := (List.dropWhile_suffix (l := s) isAscii).length_le
      rw [_hrest] at hsuffix
      omega

/-- The admissible first two bytes of a three-byte sequence. -/
def ThreeByteLead (a b : ℕ) : Prop :=
  (a = 0xe0 ∧ 0xa0 ≤ b ∧ b ≤ 0xbf) ∨ (0xe1 ≤ a ∧ a ≤ 0xec ∧ 0x80 ≤ b ∧ b ≤ 0xbf) ∨
    (a = 0xed ∧ 0x80 ≤ b ∧ b ≤ 0x9f) ∨ (0xee ≤ a ∧ a ≤ 0xef ∧ 0x80 ≤ b ∧ b ≤ 0xbf)

/-- The admissible first two bytes of a four-byte sequence. -/
def FourByteLead (a b : ℕ) : Prop :=
  (a = 0xf0 ∧ 0x90 ≤ b ∧ b ≤ 0xbf) ∨ (0xf1 ≤ a ∧ a ≤ 0xf3 ∧ 0x80 ≤ b ∧ b ≤ 0xbf) ∨
    (a = 0xf4 ∧ 0x80 ≤ b ∧ b ≤ 0x8f)

/-- The range of the remaining bytes of a sequence. -/
def TrailByte (b : ℕ) : Prop := 0x80 ≤ b ∧ b ≤ 0xbf

/-- Concatenations of well-formed sequences: no overlong forms, no surrogates,
nothing above U+10FFFF, and no truncated sequence. -/
inductive WellFormedUtf8 : Bytes → Prop
  | nil : WellFormedUtf8 []
  | ascii {a : UInt8} {s : Bytes} (ha : a.toNat ≤ 0x7f) (hs : WellFormedUtf8 s) :
      WellFormedUtf8 (a :: s)
  | two {a b : UInt8} {s : Bytes} (ha : 0xc2 ≤ a.toNat ∧ a.toNat ≤ 0xdf)
      (hb : TrailByte b.toNat) (hs : WellFormedUtf8 s) : WellFormedUtf8 (a :: b :: s)
  | three {a b c : UInt8} {s : Bytes} (hab : ThreeByteLead a.toNat b.toNat)
      (hc : TrailByte c.toNat) (hs : WellFormedUtf8 s) : WellFormedUtf8 (a :: b :: c :: s)
  | four {a b c d : UInt8} {s : Bytes} (hab : FourByteLead a.toNat b.toNat)
      (hc : TrailByte c.toNat) (hd : TrailByte d.toNat) (hs : WellFormedUtf8 s) :
      WellFormedUtf8 (a :: b :: c :: d :: s)

theorem isAscii_iff (b : UInt8) : isAscii b = true ↔ b.toNat ≤ 0x7f := by
  revert b; decide +kernel

theorem isTrail_iff (b : UInt8) : isTrail b = true ↔ TrailByte b.toNat := by
  unfold TrailByte
  revert b; decide +kernel

private theorem lead_masks (a : UInt8) (ha : 0x80 ≤ a.toNat) :
    ((a &&& 0x60 == 0x40) = true ↔ 0xc0 ≤ a.toNat ∧ a.toNat ≤ 0xdf) ∧
    ((a &&& 0xfe == 0xc0) = true ↔ 0xc0 ≤ a.toNat ∧ a.toNat ≤ 0xc1) ∧
    ((a &&& 0xf0 == 0xe0) = true ↔ 0xe0 ≤ a.toNat ∧ a.toNat ≤ 0xef) ∧
    ((a &&& 0xf8 == 0xf0) = true ↔ 0xf0 ≤ a.toNat ∧ a.toNat ≤ 0xf7) := by
  revert a; decide +kernel

private theorem second_masks (b : UInt8) :
    ((b &&& 0xe0 == 0x80) = true ↔ 0x80 ≤ b.toNat ∧ b.toNat ≤ 0x9f) ∧
    ((b &&& 0xe0 == 0xa0) = true ↔ 0xa0 ≤ b.toNat ∧ b.toNat ≤ 0xbf) ∧
    ((b &&& 0xf0 == 0x80) = true ↔ 0x80 ≤ b.toNat ∧ b.toNat ≤ 0x8f) := by
  revert b; decide +kernel

private theorem beq_iff_toNat (a b : UInt8) : (a == b) = true ↔ a.toNat = b.toNat := by
  rw [beq_iff_eq, UInt8.toNat_inj]

/-- An ASCII byte can be removed from the front of a well-formed text. -/
theorem wellFormedUtf8_ascii_cons {a : UInt8} {s : Bytes} (ha : isAscii a = true) :
    WellFormedUtf8 (a :: s) ↔ WellFormedUtf8 s := by
  rw [isAscii_iff] at ha
  constructor
  · intro h
    cases h with
    | ascii _ hs => exact hs
    | two hlead => omega
    | three hlead => unfold ThreeByteLead at hlead; omega
    | four hlead => unfold FourByteLead at hlead; omega
  · exact .ascii ha

/-- The mask tests reject a two-byte sequence exactly outside its row. -/
private theorem two_tests {a b : UInt8} (ha : 0xc0 ≤ a.toNat ∧ a.toNat ≤ 0xdf) :
    (!isTrail b || a &&& 0xfe == 0xc0) = true ↔
      ¬((0xc2 ≤ a.toNat ∧ a.toNat ≤ 0xdf) ∧ TrailByte b.toNat) := by
  obtain ⟨_, hoverlong, _, _⟩ := lead_masks a (by omega)
  rw [Bool.or_eq_true, hoverlong, Bool.not_eq_true', ← Bool.not_eq_true, isTrail_iff]
  unfold TrailByte
  omega

/-- The mask tests reject a three-byte sequence exactly outside its rows. -/
private theorem three_tests {a b c : UInt8} (ha : 0xe0 ≤ a.toNat ∧ a.toNat ≤ 0xef) :
    (!isTrail b || !isTrail c || (a == 0xe0 && b &&& 0xe0 == 0x80) ||
        (a == 0xed && b &&& 0xe0 == 0xa0)) = true ↔
      ¬(ThreeByteLead a.toNat b.toNat ∧ TrailByte c.toNat) := by
  obtain ⟨hlow, hhigh, _⟩ := second_masks b
  rw [Bool.or_eq_true, Bool.or_eq_true, Bool.or_eq_true, Bool.and_eq_true, Bool.and_eq_true,
    hlow, hhigh, beq_iff_toNat, beq_iff_toNat, Bool.not_eq_true', Bool.not_eq_true',
    ← Bool.not_eq_true, ← Bool.not_eq_true, isTrail_iff, isTrail_iff]
  simp only [UInt8.toNat_ofNat]
  unfold ThreeByteLead TrailByte
  omega

/-- The mask tests reject a four-byte sequence exactly outside its rows. -/
private theorem four_tests {a b c d : UInt8} (ha : 0xf0 ≤ a.toNat ∧ a.toNat ≤ 0xf7) :
    (!isTrail b || !isTrail c || !isTrail d || (a == 0xf0 && b &&& 0xf0 == 0x80) ||
        (a == 0xf4 && decide (b > 0x8f)) || decide (a > 0xf4)) = true ↔
      ¬(FourByteLead a.toNat b.toNat ∧ TrailByte c.toNat ∧ TrailByte d.toNat) := by
  obtain ⟨_, _, hlow⟩ := second_masks b
  simp only [Bool.or_eq_true, Bool.and_eq_true, hlow, beq_iff_toNat, decide_eq_true_eq,
    Bool.not_eq_true', gt_iff_lt, UInt8.lt_iff_toNat_lt, UInt8.toNat_ofNat]
  simp only [← Bool.not_eq_true, isTrail_iff]
  unfold FourByteLead TrailByte
  omega

/-- The multi-byte branch accepts exactly one well-formed sequence. -/
theorem wellFormedUtf8_multibyte {a : UInt8} {s : Bytes} (ha : ¬isAscii a = true) :
    WellFormedUtf8 (a :: s) ↔ ∃ t, skipMultibyte (a :: s) = some t ∧ WellFormedUtf8 t := by
  have hnon : 0x80 ≤ a.toNat := by
    rw [isAscii_iff] at ha
    omega
  obtain ⟨htwo, _, hthree, hfour⟩ := lead_masks a hnon
  constructor
  · intro h
    cases h with
    | ascii hle => omega
    | two hlead hb hs =>
      refine ⟨_, ?_, hs⟩
      have hrange : 0xc0 ≤ a.toNat ∧ a.toNat ≤ 0xdf := by omega
      simp only [skipMultibyte]
      rw [if_pos (htwo.mpr hrange), if_neg ((two_tests hrange).not_left.mpr ⟨hlead, hb⟩)]
    | three hlead hc hs =>
      refine ⟨_, ?_, hs⟩
      have hrange : 0xe0 ≤ a.toNat ∧ a.toNat ≤ 0xef := by unfold ThreeByteLead at hlead; omega
      simp only [skipMultibyte]
      rw [if_neg (htwo.not.mpr (by omega)), if_pos (hthree.mpr hrange),
        if_neg ((three_tests hrange).not_left.mpr ⟨hlead, hc⟩)]
    | four hlead hc hd hs =>
      refine ⟨_, ?_, hs⟩
      have hrange : 0xf0 ≤ a.toNat ∧ a.toNat ≤ 0xf7 := by unfold FourByteLead at hlead; omega
      simp only [skipMultibyte]
      rw [if_neg (htwo.not.mpr (by omega)), if_neg (hthree.not.mpr (by omega)),
        if_pos (hfour.mpr hrange), if_neg ((four_tests hrange).not_left.mpr ⟨hlead, hc, hd⟩)]
  · rintro ⟨t, hskip, ht⟩
    unfold skipMultibyte at hskip
    split at hskip
    · exact absurd hskip (by simp)
    rename_i a' s' heq
    obtain ⟨rfl, rfl⟩ : a = a' ∧ s = s' := by simpa using heq
    split at hskip
    · rename_i hlead
      match s, hskip with
      | b :: t', hskip =>
        obtain ⟨htests, rfl⟩ : _ ∧ t' = t := by simpa only [Option.ite_none_left_eq_some,
          Option.some.injEq] using hskip
        obtain ⟨hrow, hb⟩ := (two_tests (htwo.mp hlead)).not_left.mp htests
        exact .two hrow hb ht
    split at hskip
    · rename_i hlead
      match s, hskip with
      | b :: c :: t', hskip =>
        obtain ⟨htests, rfl⟩ : _ ∧ t' = t := by simpa only [Option.ite_none_left_eq_some,
          Option.some.injEq] using hskip
        obtain ⟨hrow, hc⟩ := (three_tests (hthree.mp hlead)).not_left.mp htests
        exact .three hrow hc ht
    split at hskip
    · rename_i hlead
      match s, hskip with
      | b :: c :: d :: t', hskip =>
        obtain ⟨htests, rfl⟩ : _ ∧ t' = t := by simpa only [Option.ite_none_left_eq_some,
          Option.some.injEq] using hskip
        obtain ⟨hrow, hc, hd⟩ := (four_tests (hfour.mp hlead)).not_left.mp htests
        exact .four hrow hc hd ht
    · exact absurd hskip (by simp)

/-- A run of ASCII bytes can be skipped. -/
theorem wellFormedUtf8_ascii_append {left s : Bytes} (h : left.all isAscii = true) :
    WellFormedUtf8 (left ++ s) ↔ WellFormedUtf8 s := by
  induction left with
  | nil => rfl
  | cons a left ih =>
    simp only [List.all_cons, Bool.and_eq_true] at h
    rw [List.cons_append, wellFormedUtf8_ascii_cons h.1, ih h.2]

/-- Skipping the leading ASCII bytes one at a time does not change the verdict. -/
theorem wellFormedUtf8_dropWhile (s : Bytes) :
    WellFormedUtf8 s ↔ WellFormedUtf8 (s.dropWhile isAscii) := by
  conv_lhs => rw [← List.takeWhile_append_dropWhile (p := isAscii) (l := s)]
  exact wellFormedUtf8_ascii_append List.all_takeWhile

/-- `isValidUtf8` accepts exactly the well-formed texts. -/
theorem isValidUtf8_iff (s : Bytes) : isValidUtf8 s = true ↔ WellFormedUtf8 s := by
  fun_induction isValidUtf8 s with
  | case1 => simpa using WellFormedUtf8.nil
  | case2 s hne hword ih =>
    rw [ih]
    conv_rhs => rw [← List.take_append_drop 4 s]
    exact (wellFormedUtf8_ascii_append hword.2).symm
  | case3 s hne hword hrest =>
    rw [wellFormedUtf8_dropWhile, hrest]
    simpa using WellFormedUtf8.nil
  | case4 s hne hword a rest hrest hskip =>
    have ha : ¬isAscii a = true := by
      simpa [hrest] using List.head?_dropWhile_not isAscii s
    rw [wellFormedUtf8_dropWhile, hrest, wellFormedUtf8_multibyte ha]
    simp [hskip]
  | case5 s hne hword a rest hrest t hskip ih =>
    have ha : ¬isAscii a = true := by
      simpa [hrest] using List.head?_dropWhile_not isAscii s
    rw [wellFormedUtf8_dropWhile s, hrest, wellFormedUtf8_multibyte ha, ih]
    simp [hskip]

instance (s : Bytes) : Decidable (WellFormedUtf8 s) :=
  decidable_of_iff (isValidUtf8 s = true) (isValidUtf8_iff s)

end Eiows
