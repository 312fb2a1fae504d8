import Eiows.Memory.Checked
import Eiows.Protocol.Masking

/-!
# Unmasking in place

The payload is unmasked inside the caller's buffer, and may be moved towards its
front on the way, so the loops read from memory that they also write. This file
embeds them on a buffer with pointers, in each of the three variants that the
build and the processor choose from, with the block test `i + 32 <= length` in
32 bits. They compute the key stream of the bytes that were there at first.
-/

namespace Eiows

open Memory

/-- How payloads are unmasked: `EIOWS_USE_AVX2` with `hasAvx2()`,
`EIOWS_USE_NEON`, or neither. -/
inductive UnmaskVariant where
  | scalar
  | avx2
  | neon
  deriving DecidableEq, Repr

namespace InPlace

/-- `*dst = *src ^ b`. -/
def xorByte (dst src : ℕ) (b : UInt8) (buffer : Bytes) : Checked Bytes := do
  let input ← load buffer src 1
  store buffer dst (input.map (· ^^^ b))

/-- `for (; i < length; i++) dst[i] = src[i] ^ mask[i & 3]`. -/
def tailLoop (dst src length : ℕ) (mask : Mask) (i : ℕ) (buffer : Bytes) : Checked Bytes :=
  if i < length then do
    let buffer ← xorByte (dst + i) (src + i) (mask.byte i) buffer
    tailLoop dst src length mask (i + 1) buffer
  else .ok buffer
  termination_by length - i

/-- The loop over whole vectors of `width` bytes, and the tail. The sum `i + width`
is computed in 32 bits. -/
def vectorLoop (width : ℕ) (hwidth : 0 < width) (dst src length : ℕ) (mask : Mask) (i : ℕ)
    (buffer : Bytes) : Checked Bytes :=
  if 2 ^ 32 ≤ i + width then .error .overflow
  else if i + width ≤ length then do
    let input ← load buffer (src + i) width
    -- The vector register repeats the mask.
    let buffer ← store buffer (dst + i) (keystream mask 0 input)
    vectorLoop width hwidth dst src length mask (i + width) buffer
  else tailLoop dst src length mask i buffer
  termination_by length - i

/-- `unmaskAvx2`. -/
def unmaskAvx2 (dst src length : ℕ) (mask : Mask) (buffer : Bytes) : Checked Bytes :=
  vectorLoop 32 (by decide) dst src length mask 0 buffer

/-- `unmaskNeon`. -/
def unmaskNeon (dst src length : ℕ) (mask : Mask) (buffer : Bytes) : Checked Bytes :=
  vectorLoop 16 (by decide) dst src length mask 0 buffer

/-- The loops of `unmaskImprecise` without vectors: four bytes at a time, then the
remaining ones. -/
def scalarLoop (dst src length : ℕ) (mask : Mask) (buffer : Bytes) : Checked Bytes :=
  if 4 ≤ length then do
    let buffer ← xorByte dst src (mask.byte 0) buffer
    let buffer ← xorByte (dst + 1) (src + 1) (mask.byte 1) buffer
    let buffer ← xorByte (dst + 2) (src + 2) (mask.byte 2) buffer
    let buffer ← xorByte (dst + 3) (src + 3) (mask.byte 3) buffer
    scalarLoop (dst + 4) (src + 4) (length - 4) mask buffer
  else tailLoop dst src length mask 0 buffer
  termination_by length

/-- `AVX2_UNMASK_MIN_LENGTH` and `NEON_UNMASK_MIN_LENGTH`. -/
def vectorUnmaskMinLength : ℕ := 64

/-- `unmaskImprecise(dst, src, mask, length)`. -/
def unmaskImprecise (variant : UnmaskVariant) (dst src length : ℕ) (mask : Mask) (buffer : Bytes) :
    Checked Bytes :=
  if variant = .avx2 ∧ vectorUnmaskMinLength ≤ length then unmaskAvx2 dst src length mask buffer
  else if variant = .neon ∧ vectorUnmaskMinLength ≤ length then unmaskNeon dst src length mask buffer
  else scalarLoop dst src length mask buffer

/-- `unmaskInplace(data, data + length, mask)`. Without vectors its loops are those
of `unmaskImprecise`, from a byte to itself. -/
def unmaskInplace (variant : UnmaskVariant) (data length : ℕ) (mask : Mask) (buffer : Bytes) :
    Checked Bytes :=
  unmaskImprecise variant data data length mask buffer

/-- The lengths from which the block test of a variant leaves 32 bits. -/
def unmaskLimit : UnmaskVariant → ℕ
  | .scalar => 2 ^ 32
  | .avx2 => 2 ^ 32 - 32
  | .neon => 2 ^ 32 - 16

/-- The buffer once `count` bytes from `src` have been unmasked to `dst`, from
position `phase` of the key stream on. -/
def unmasked (dst src count : ℕ) (mask : Mask) (phase : ℕ) (buffer : Bytes) : Bytes :=
  overwrite buffer dst (keystream mask phase (slice buffer src count))

section Unmasked

variable {dst src count : ℕ} {mask : Mask} {phase : ℕ} {buffer : Bytes}

@[simp] theorem unmasked_zero (dst src : ℕ) (mask : Mask) (phase : ℕ) (buffer : Bytes) :
    unmasked dst src 0 mask phase buffer = buffer := by
  rw [unmasked, slice_zero, keystream_nil, overwrite_nil]

@[simp] theorem unmasked_length (h : dst ≤ src) (hinside : src + count ≤ buffer.length) :
    (unmasked dst src count mask phase buffer).length = buffer.length := by
  apply overwrite_length
  rw [keystream_length, slice_length hinside]
  omega

/-- Unmasking in two steps. The second one reads what the first one did not write. -/
theorem unmasked_unmasked {more : ℕ} (h : dst ≤ src) (hinside : src + (count + more) ≤ buffer.length) :
    unmasked (dst + count) (src + count) more mask (phase + count)
        (unmasked dst src count mask phase buffer) =
      unmasked dst src (count + more) mask phase buffer := by
  have hlength : (keystream mask phase (slice buffer src count)).length = count := by
    rw [keystream_length, slice_length (by omega)]
  have hread : slice (unmasked dst src count mask phase buffer) (src + count) more =
      slice buffer (src + count) more := by
    apply slice_overwrite_behind <;> omega
  have hjoin := @overwrite_overwrite _ buffer (keystream mask phase (slice buffer src count)) dst
    (keystream mask (phase + count) (slice buffer (src + count) more)) (by omega)
  rw [unmasked, hread, unmasked, unmasked, slice_add, keystream_append, slice_length (by omega),
    ← hjoin, hlength]

/-- Four positions later the key stream is the same. -/
theorem unmasked_phase (h : phase % 4 = 0) (dst src count : ℕ) (mask : Mask) (buffer : Bytes) :
    unmasked dst src count mask phase buffer = unmasked dst src count mask 0 buffer := by
  rw [unmasked, unmasked, keystream_congr]
  intro i
  apply mask.byte_congr
  omega

end Unmasked

section Loops

variable {dst src length : ℕ} {mask : Mask} {buffer : Bytes}

theorem xorByte_eq {phase : ℕ} {b : UInt8} (hb : b = mask.byte phase) (h : dst ≤ src)
    (hinside : src + 1 ≤ buffer.length) :
    xorByte dst src b buffer = .ok (unmasked dst src 1 mask phase buffer) := by
  have hone : ∀ data : Bytes, data.length = 1 → data.map (· ^^^ b) = keystream mask phase data := by
    rintro data hdata
    obtain ⟨first, rfl⟩ := List.length_eq_one_iff.mp hdata
    rw [hb]
    rfl
  have hdata := slice_length hinside
  simp only [xorByte, load_of_le hinside, bind, Except.bind]
  rw [hone _ hdata, store_of_le]
  · rfl
  · rw [keystream_length, hdata]
    omega

/-- The tail unmasks the bytes from `i` on. -/
theorem tailLoop_eq (h : dst ≤ src) (hinside : src + length ≤ buffer.length) {i : ℕ}
    (hi : i ≤ length) :
    tailLoop dst src length mask i buffer =
      .ok (unmasked (dst + i) (src + i) (length - i) mask i buffer) := by
  fun_induction tailLoop dst src length mask i buffer with
  | case1 i buffer hlt ih =>
    have hbyte := @xorByte_eq (dst + i) (src + i) mask buffer i _ rfl (by omega) (by omega)
    have hnext := ih (unmasked (dst + i) (src + i) 1 mask i buffer)
      (by rw [unmasked_length (by omega) (by omega)]; exact hinside) (by omega)
    have hjoin := @unmasked_unmasked (dst + i) (src + i) 1 mask i buffer (length - (i + 1)) (by omega)
      (by omega)
    have hcount : 1 + (length - (i + 1)) = length - i := by omega
    rw [hcount] at hjoin
    simp only [hbyte, bind, Except.bind, hnext]
    rw [← hjoin, Nat.add_assoc, Nat.add_assoc]
  | case2 i buffer hge =>
    have hdone : length - i = 0 := by omega
    rw [hdone, unmasked_zero]

/-- One more byte behind the first `count`. -/
theorem xorByte_unmasked {count : ℕ} {b : UInt8} (hb : b = mask.byte count) (h : dst ≤ src)
    (hinside : src + (count + 1) ≤ buffer.length) :
    xorByte (dst + count) (src + count) b (unmasked dst src count mask 0 buffer) =
      .ok (unmasked dst src (count + 1) mask 0 buffer) := by
  have hbyte := @xorByte_eq (dst + count) (src + count) mask (unmasked dst src count mask 0 buffer)
    count _ hb (by omega)
    (by rw [unmasked_length h (by omega)]; omega)
  have hjoin := @unmasked_unmasked dst src count mask 0 buffer 1 h hinside
  rw [Nat.zero_add] at hjoin
  rw [hbyte, hjoin]

/-- The loop over blocks of four bytes. -/
theorem scalarLoop_eq (h : dst ≤ src) (hinside : src + length ≤ buffer.length) :
    scalarLoop dst src length mask buffer = .ok (unmasked dst src length mask 0 buffer) := by
  fun_induction scalarLoop dst src length mask buffer with
  | case1 dst src length buffer hfour ih =>
    have hfirst := @xorByte_unmasked dst src mask buffer 0 _ rfl h (by omega)
    have hsecond := @xorByte_unmasked dst src mask buffer 1 _ rfl h (by omega)
    have hthird := @xorByte_unmasked dst src mask buffer 2 _ rfl h (by omega)
    have hfourth := @xorByte_unmasked dst src mask buffer 3 _ rfl h (by omega)
    rw [unmasked_zero] at hfirst
    have hrest := ih (unmasked dst src (3 + 1) mask 0 buffer) (by omega)
      (by rw [unmasked_length h (by omega)]; omega)
    have hjoin := @unmasked_unmasked dst src 4 mask 0 buffer (length - 4) h (by omega)
    rw [unmasked_phase (by decide), Nat.add_sub_cancel' hfour] at hjoin
    simp only [Nat.add_zero] at hfirst hsecond hthird hfourth
    simp only [hfirst, hsecond, hthird, hfourth, hrest, hjoin, bind, Except.bind]
  | case2 dst src length buffer hfew =>
    simpa using tailLoop_eq h hinside (Nat.zero_le length)

/-- The loop over vectors stops where the block test leaves 32 bits. -/
theorem vectorLoop_eq {width : ℕ} (hwidth : 0 < width) (hfour : width % 4 = 0)
    (hpower : 2 ^ 32 % width = 0) (h : dst ≤ src) (hinside : src + length ≤ buffer.length) {i : ℕ}
    (hi : i ≤ length)
    (hblock : i % width = 0) (hphase : i % 4 = 0) :
    vectorLoop width hwidth dst src length mask i buffer =
      if length < 2 ^ 32 - width then
        .ok (unmasked (dst + i) (src + i) (length - i) mask 0 buffer)
      else .error .overflow := by
  fun_induction vectorLoop width hwidth dst src length mask i buffer with
  | case1 i buffer hwrap =>
    rw [if_neg (by omega)]
  | case2 i buffer hfits hle ih =>
    have hread : src + i + width ≤ buffer.length := by omega
    have hkey : keystream mask 0 (slice buffer (src + i) width) =
        keystream mask i (slice buffer (src + i) width) := by
      apply keystream_congr
      intro j
      apply mask.byte_congr
      omega
    have hstore : store buffer (dst + i) (keystream mask 0 (slice buffer (src + i) width)) =
        .ok (unmasked (dst + i) (src + i) width mask i buffer) := by
      rw [hkey, store_of_le, unmasked]
      rw [keystream_length, slice_length hread]
      omega
    have hnext := ih (unmasked (dst + i) (src + i) width mask i buffer)
      (by rw [unmasked_length (by omega) hread]; exact hinside) hle
      (by rw [Nat.add_mod_right, hblock]) (by omega)
    have hjoin := @unmasked_unmasked (dst + i) (src + i) width mask i buffer (length - (i + width))
      (by omega) (by omega)
    have hcount : width + (length - (i + width)) = length - i := by omega
    have hlater : (i + width) % 4 = 0 := by omega
    rw [hcount, unmasked_phase hlater, unmasked_phase hphase _ _ (length - i), Nat.add_assoc,
      Nat.add_assoc] at hjoin
    simp only [load_of_le hread, hstore, hnext, hjoin, bind, Except.bind]
  | case3 i buffer hfits hgt =>
    -- The block position and `2 ^ 32` are multiples of the width.
    have hlast : length < 2 ^ 32 - width := by
      obtain ⟨block, rfl⟩ := Nat.dvd_of_mod_eq_zero hblock
      obtain ⟨blocks, hblocks⟩ := Nat.dvd_of_mod_eq_zero hpower
      have hlt : width * (block + 1) < width * blocks := by
        rw [← hblocks, Nat.mul_succ]
        omega
      have hle : width * (block + 2) ≤ width * blocks :=
        Nat.mul_le_mul_left width (Nat.lt_of_mul_lt_mul_left hlt)
      rw [← hblocks, Nat.mul_add, Nat.mul_two] at hle
      omega
    rw [if_pos hlast, tailLoop_eq h hinside hi, unmasked_phase hphase]

/-- Every variant unmasks exactly the bytes that were there at first, unless its
block test leaves 32 bits. -/
theorem unmaskImprecise_eq (variant : UnmaskVariant) (mask : Mask) (h : dst ≤ src)
    (hinside : src + length ≤ buffer.length) (hlength : length < 2 ^ 32) :
    unmaskImprecise variant dst src length mask buffer =
      if length < unmaskLimit variant then .ok (unmasked dst src length mask 0 buffer)
      else .error .overflow := by
  have hvector : ∀ {width : ℕ} (hwidth : 0 < width), width % 4 = 0 → 2 ^ 32 % width = 0 →
      vectorLoop width hwidth dst src length mask 0 buffer =
        if length < 2 ^ 32 - width then .ok (unmasked dst src length mask 0 buffer)
        else .error .overflow := by
    intro width hwidth hfour hpower
    simpa using vectorLoop_eq hwidth hfour hpower h hinside (Nat.zero_le length)
      (Nat.zero_mod width) (Nat.zero_mod 4)
  have hscalar := @scalarLoop_eq dst src length mask buffer h hinside
  unfold unmaskImprecise
  cases variant with
  | scalar =>
    have hshort : length < unmaskLimit .scalar := hlength
    simp [hscalar, hshort]
  | avx2 =>
    by_cases hlong : vectorUnmaskMinLength ≤ length
    · simp only [hlong, and_self, if_true, unmaskAvx2, unmaskLimit]
      exact hvector _ rfl rfl
    · have hshort : length < unmaskLimit .avx2 := by
        simp only [vectorUnmaskMinLength, unmaskLimit] at hlong ⊢
        omega
      simp [hlong, hscalar, hshort]
  | neon =>
    by_cases hlong : vectorUnmaskMinLength ≤ length
    · simp only [hlong, and_self, if_true, unmaskNeon, unmaskLimit, reduceCtorEq, false_and, if_false]
      exact hvector _ rfl rfl
    · have hshort : length < unmaskLimit .neon := by
        simp only [vectorUnmaskMinLength, unmaskLimit] at hlong ⊢
        omega
      simp [hlong, hscalar, hshort]

end Loops

end InPlace

end Eiows
