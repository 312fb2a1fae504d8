import Mathlib.Data.List.Basic
import Mathlib.Tactic.IntervalCases

/-!
# Masking client payloads

The four-byte key of a client frame repeats over its payload. The parser
unmasks in blocks of four, rotates the saved key after a partial read, and
unmasks the rest of a frame in two steps. All of these compute positions of one
key stream.
-/

namespace Eiows

/-- Octets of the wire. -/
abbrev Bytes := List UInt8

/-- The four masking bytes of a frame. -/
abbrev Mask := Vector UInt8 4

/-- `mask[i & 3]`. -/
def Mask.byte (mask : Mask) (i : ℕ) : UInt8 := mask[i % 4]

/-- The payload under the repeated key, where the first byte is at position
`offset` of the key stream. -/
def keystream (key : Mask) (offset : ℕ) : Bytes → Bytes
  | [] => []
  | b :: bs => (b ^^^ key.byte offset) :: keystream key (offset + 1) bs

@[simp] theorem keystream_nil (key : Mask) (offset : ℕ) : keystream key offset [] = [] := rfl

@[simp] theorem keystream_length (key : Mask) (offset : ℕ) (data : Bytes) :
    (keystream key offset data).length = data.length := by
  induction data generalizing offset with
  | nil => rfl
  | cons b bs ih => simp [keystream, ih]

/-- A concatenated payload is unmasked piece by piece at consecutive positions. -/
theorem keystream_append (key : Mask) (offset : ℕ) (left right : Bytes) :
    keystream key offset (left ++ right) =
      keystream key offset left ++ keystream key (offset + left.length) right := by
  induction left generalizing offset with
  | nil => simp
  | cons b bs ih => simp [keystream, ih, Nat.add_assoc, Nat.add_comm 1]

/-- Masking is an involution: the same key stream masks and unmasks. -/
@[simp] theorem keystream_keystream (key : Mask) (offset : ℕ) (data : Bytes) :
    keystream key offset (keystream key offset data) = data := by
  induction data generalizing offset with
  | nil => rfl
  | cons b bs ih => rw [keystream, keystream, ih, UInt8.xor_assoc, UInt8.xor_self, UInt8.xor_zero]

/-- Key streams with the same bytes at corresponding positions agree. -/
theorem keystream_congr {key key' : Mask} {offset offset' : ℕ} (data : Bytes)
    (h : ∀ i, key.byte (offset + i) = key'.byte (offset' + i)) :
    keystream key offset data = keystream key' offset' data := by
  induction data generalizing offset offset' with
  | nil => rfl
  | cons b bs ih =>
    have hhead : key.byte offset = key'.byte offset' := h 0
    rw [keystream, keystream, hhead, ih]
    intro i
    simpa only [Nat.add_assoc, Nat.add_comm 1 i] using h (i + 1)

/-- The key stream has period four. -/
theorem Mask.byte_congr (key : Mask) {i j : ℕ} (h : i % 4 = j % 4) : key.byte i = key.byte j := by
  simp only [Mask.byte, h]

/-- `unmaskImprecise` with separate buffers: whole blocks of four bytes, then
the remaining bytes. -/
def unmaskImprecise (mask : Mask) : Bytes → Bytes
  | a :: b :: c :: d :: rest =>
    (a ^^^ mask[0]) :: (b ^^^ mask[1]) :: (c ^^^ mask[2]) :: (d ^^^ mask[3]) ::
      unmaskImprecise mask rest
  | [a, b, c] => [a ^^^ mask[0], b ^^^ mask[1], c ^^^ mask[2]]
  | [a, b] => [a ^^^ mask[0], b ^^^ mask[1]]
  | [a] => [a ^^^ mask[0]]
  | [] => []

/-- The block loop computes the key stream from position zero. -/
theorem unmaskImprecise_eq_keystream (mask : Mask) (data : Bytes) :
    unmaskImprecise mask data = keystream mask 0 data := by
  fun_induction unmaskImprecise mask data with
  | case1 a b c d rest ih =>
    have hshift : keystream mask 4 rest = keystream mask 0 rest :=
      keystream_congr rest (fun i => mask.byte_congr (by omega))
    simp [keystream, ih, hshift, Mask.byte]
  | case2 => simp [keystream, Mask.byte]
  | case3 => simp [keystream, Mask.byte]
  | case4 => simp [keystream, Mask.byte]
  | case5 => rfl

/-- `rotateMask` stores byte `i` of the original mask at `(i + offset) & 3`. -/
def rotateMask (offset : ℕ) (mask : Mask) : Mask :=
  (((mask.set ((0 + offset) % 4) mask[0]).set ((1 + offset) % 4) mask[1]).set
    ((2 + offset) % 4) mask[2]).set ((3 + offset) % 4) mask[3]

/-- After `count` bytes have been read, the rotation by `4 - (count & 3)`
brings the next key byte to the front. -/
theorem rotateMask_byte (mask : Mask) (count i : ℕ) :
    (rotateMask (4 - count % 4) mask).byte i = mask.byte (count + i) := by
  have hsmall : ∀ c < 4, ∀ j < 4, (rotateMask (4 - c) mask).byte j = mask.byte (c + j) := by
    intro c hc j hj
    interval_cases c <;> interval_cases j <;> simp [rotateMask, Mask.byte]
  rw [(rotateMask _ mask).byte_congr (Nat.mod_mod i 4).symm,
    hsmall (count % 4) (Nat.mod_lt _ (by decide)) (i % 4) (Nat.mod_lt _ (by decide))]
  exact mask.byte_congr (by omega)

/-- Continuing with the rotated mask is continuing the key stream. -/
theorem keystream_rotateMask (mask : Mask) (count offset : ℕ) (data : Bytes) :
    keystream (rotateMask (4 - count % 4) mask) offset data =
      keystream mask (count + offset) data :=
  keystream_congr data (fun i => by rw [rotateMask_byte, Nat.add_assoc])

/-- Rotating twice counts the bytes of both reads. -/
theorem rotateMask_rotateMask (mask : Mask) (first second : ℕ) :
    rotateMask (4 - second % 4) (rotateMask (4 - first % 4) mask) =
      rotateMask (4 - (first + second) % 4) mask := by
  apply Vector.ext
  intro i hi
  have h : (rotateMask (4 - second % 4) (rotateMask (4 - first % 4) mask)).byte i =
      (rotateMask (4 - (first + second) % 4) mask).byte i := by
    simp only [rotateMask_byte, Nat.add_assoc]
  simpa only [Mask.byte, Nat.mod_eq_of_lt hi] using h

/-- Multiplication in `int`: the product wraps to its two's complement value
where it overflows 32 bits. -/
def intMul (a b : ℕ) : ℤ := ((a * b : ℕ) : ℤ).bmod (2 ^ 32)

/-- Below `2 ^ 31` the product is exact. -/
theorem intMul_eq {a b : ℕ} (h : a * b < 2 ^ 31) : intMul a b = ((a * b : ℕ) : ℤ) := by
  unfold intMul
  rw [Int.bmod_def]
  have : ((a * b : ℕ) : ℤ) < 2 ^ 31 := by exact_mod_cast h
  split <;> omega

/-- `unmaskInplace(data, stop, mask)` by its scalar loop, with `stop` given relative to
`data`. Nothing is touched from `stop` on, or when `stop` lies before `data`. The vector loops
read a `stop` before `data` as an unsigned length, and would unmask that many bytes; only the
last part of a frame, of `2 ^ 31` bytes or more, comes to such a `stop`. -/
def unmaskInplace (data : Bytes) (stop : ℤ) (mask : Mask) : Bytes :=
  unmaskImprecise mask (data.take stop.toNat) ++ data.drop stop.toNat

/-- Unmasking a whole buffer in place. -/
theorem unmaskInplace_length (data : Bytes) (mask : Mask) :
    unmaskInplace data data.length mask = keystream mask 0 data := by
  simp [unmaskInplace, unmaskImprecise_eq_keystream]

/-- `data[index] ^= b`, for an index inside the buffer. -/
def xorAt (data : Bytes) (index : ℤ) (b : UInt8) : Bytes :=
  if 0 ≤ index then data.modify index.toNat (· ^^^ b) else data

/-- The unmasking of the final part of a frame in `consumeContinuation`: whole
blocks up to `n * 4`, then one byte at a time for the remaining `length & 3`. -/
def unmaskFinal (data : Bytes) (mask : Mask) : Bytes :=
  let n := data.length / 4
  (List.range (data.length % 4)).foldl
    (fun bytes (i : ℕ) => xorAt bytes (intMul n 4 + i) (mask.byte i))
    (unmaskInplace data (intMul n 4) mask)

theorem unmaskFinal_length (data : Bytes) (mask : Mask) : (unmaskFinal data mask).length = data.length := by
  have hxor : ∀ (bytes : Bytes) (index : ℤ) (b : UInt8), (xorAt bytes index b).length = bytes.length := by
    intro bytes index b
    unfold xorAt
    split_ifs
    · rw [List.length_modify]
    · rfl
  have hfold : ∀ (indices : List ℕ) (bytes : Bytes),
      (indices.foldl (fun bytes (i : ℕ) => xorAt bytes (intMul (data.length / 4) 4 + i)
        (mask.byte i)) bytes).length = bytes.length := by
    intro indices
    induction indices with
    | nil => exact fun bytes => rfl
    | cons i rest ih =>
      intro bytes
      rw [List.foldl_cons, ih, hxor]
  rw [unmaskFinal, hfold, unmaskInplace, unmaskImprecise_eq_keystream, List.length_append,
    keystream_length, ← List.length_append, List.take_append_drop]

private theorem foldl_xorAt_append {left right : Bytes} {base : ℤ} (mask : Mask) {count : ℕ}
    (hbase : base = (left.length : ℤ)) (hcount : count ≤ right.length) :
    (List.range count).foldl (fun bytes (i : ℕ) => xorAt bytes (base + i) (mask.byte i))
        (left ++ right) =
      left ++ (keystream mask 0 (right.take count) ++ right.drop count) := by
  induction count with
  | zero => simp
  | succ count ih =>
    obtain ⟨b, bs, hdrop⟩ : ∃ b bs, right.drop count = b :: bs :=
      List.exists_cons_of_length_pos (by simp only [List.length_drop]; omega)
    have htake : right.take (count + 1) = right.take count ++ [b] := by
      rw [List.take_add, hdrop]; rfl
    have hrest : right.drop (count + 1) = bs := by
      rw [← List.drop_drop, hdrop]; rfl
    have hlength : (right.take count).length = count := by
      rw [List.length_take]; omega
    have hindex : (0 : ℤ) ≤ base + count := by omega
    have htoNat : (base + (count : ℤ)).toNat =
        (left ++ keystream mask 0 (right.take count)).length + 0 := by
      simp only [List.length_append, keystream_length, hlength]
      omega
    rw [List.range_succ, List.foldl_append, ih (by omega), hdrop, htake, hrest]
    simp only [List.foldl_cons, List.foldl_nil, xorAt, if_pos hindex, htoNat]
    rw [← List.append_assoc, List.modify, List.modifyTailIdx_add]
    simp [keystream_append, keystream, hlength]

/-- A final part shorter than `2 ^ 31` bytes is unmasked by its key stream. -/
theorem unmaskFinal_eq_keystream {data : Bytes} (mask : Mask) (h : data.length < 2 ^ 31) :
    unmaskFinal data mask = keystream mask 0 data := by
  have hmul : intMul (data.length / 4) 4 = ((4 * (data.length / 4) : ℕ) : ℤ) := by
    rw [intMul_eq (by omega), Nat.mul_comm]
  let left := data.take (4 * (data.length / 4))
  let right := data.drop (4 * (data.length / 4))
  have hleft : left.length = 4 * (data.length / 4) := by
    simp only [left, List.length_take]; omega
  have hright : right.length = data.length % 4 := by
    simp only [right, List.length_drop]; omega
  have hblocks : unmaskInplace data (intMul (data.length / 4) 4) mask =
      keystream mask 0 left ++ right := by
    rw [unmaskInplace, hmul, Int.toNat_natCast, unmaskImprecise_eq_keystream]
  have hshift : keystream mask left.length right = keystream mask 0 right :=
    keystream_congr right (fun i => mask.byte_congr (by omega))
  calc unmaskFinal data mask
      = keystream mask 0 left ++
          (keystream mask 0 (right.take right.length) ++ right.drop right.length) := by
        rw [unmaskFinal, hblocks, ← hright]
        exact foldl_xorAt_append mask (by rw [keystream_length, hleft, hmul]) le_rfl
    _ = keystream mask 0 (left ++ right) := by
        simp [keystream_append, hshift]
    _ = keystream mask 0 data := by rw [List.take_append_drop]

end Eiows
