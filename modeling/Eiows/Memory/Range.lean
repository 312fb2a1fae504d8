import Mathlib.Algebra.Group.Nat.Defs
import Mathlib.Data.List.Basic
import Mathlib.Tactic.Common

/-!
# Objects in memory

An object is the list of its elements. Programs read ranges of an object and
overwrite them. What lies outside of the range is kept, and the ranges of several
writes join when they are adjacent.
-/

namespace Memory

variable {α : Type*}

/-- The elements of a range, as far as the object has them. -/
def slice (object : List α) (offset length : ℕ) : List α := (object.drop offset).take length

/-- Read a range of an object: `none` past its end. -/
def readRange (object : List α) (offset length : ℕ) : Option (List α) :=
  if offset + length ≤ object.length then some (slice object offset length) else none

/-- Overwrite a range of an object. -/
def overwrite (object : List α) (offset : ℕ) (data : List α) : List α :=
  object.take offset ++ data ++ object.drop (offset + data.length)

section Slice

variable {object : List α} {offset length : ℕ}

@[simp] theorem slice_zero (object : List α) (offset : ℕ) : slice object offset 0 = [] :=
  List.take_zero

theorem slice_length (h : offset + length ≤ object.length) :
    (slice object offset length).length = length := by
  rw [slice, List.length_take, List.length_drop]
  omega

/-- A range is read in two pieces. -/
theorem slice_add (object : List α) (offset left right : ℕ) :
    slice object offset (left + right) =
      slice object offset left ++ slice object (offset + left) right := by
  rw [slice, List.take_add, List.drop_drop, slice, slice]

/-- What is left of a range behind its first elements. -/
theorem slice_drop (object : List α) (offset length skip : ℕ) :
    (slice object offset length).drop skip = slice object (offset + skip) (length - skip) := by
  rw [slice, slice, List.drop_take, List.drop_drop]

/-- The first elements of a range. -/
theorem slice_take (object : List α) (offset : ℕ) {length count : ℕ} (h : count ≤ length) :
    (slice object offset length).take count = slice object offset count := by
  rw [slice, slice, List.take_take, Nat.min_eq_left h]

/-- A range inside the first elements of an object. -/
theorem slice_of_take (object : List α) {offset length count : ℕ} (h : offset + length ≤ count) :
    slice (object.take count) offset length = slice object offset length := by
  rw [slice, slice, List.drop_take, List.take_take, Nat.min_eq_left (by omega)]

/-- A range inside the first of two joined objects. -/
theorem slice_append_left {left : List α} (right : List α) (h : offset + length ≤ left.length) :
    slice (left ++ right) offset length = slice left offset length := by
  rw [slice, slice, List.drop_append_of_le_length (by omega), List.take_append_of_le_length]
  rw [List.length_drop]
  omega

/-- The range behind an object that was joined in front. -/
theorem slice_append_right (left right : List α) (length : ℕ) :
    slice (left ++ right) left.length length = right.take length := by
  rw [slice, List.drop_left]

theorem readRange_length {data : List α} (h : readRange object offset length = some data) :
    data.length = length := by
  unfold readRange at h
  split_ifs at h with hinside
  cases h
  exact slice_length hinside

/-- A part of a range that can be read can be read. -/
theorem readRange_sub {data : List α} {skip count : ℕ}
    (h : readRange object offset length = some data) (hcount : skip + count ≤ length) :
    readRange object (offset + skip) count = some ((data.drop skip).take count) := by
  unfold readRange at h ⊢
  split_ifs at h
  cases h
  rw [if_pos (by omega), slice_drop, slice_take _ _ (by omega)]

end Slice

section Overwrite

variable {object data : List α} {offset : ℕ}

theorem overwrite_length (h : offset + data.length ≤ object.length) :
    (overwrite object offset data).length = object.length := by
  simp only [overwrite, List.length_append, List.length_take, List.length_drop]
  omega

/-- The object up to the end of the range. -/
theorem take_overwrite (h : offset + data.length ≤ object.length) :
    (overwrite object offset data).take (offset + data.length) = object.take offset ++ data := by
  unfold overwrite
  apply List.take_left'
  rw [List.length_append, List.length_take]
  omega

/-- Everything before the range is kept. -/
theorem take_overwrite_of_le {count : ℕ} (h : count ≤ offset) (hinside : offset ≤ object.length) :
    (overwrite object offset data).take count = object.take count := by
  unfold overwrite
  rw [List.append_assoc, List.take_append_of_le_length (by rw [List.length_take]; omega),
    List.take_take, Nat.min_eq_left h]

/-- Everything behind the range is kept. -/
theorem drop_overwrite_of_le {count : ℕ} (h : offset + data.length ≤ count)
    (hinside : offset + data.length ≤ object.length) :
    (overwrite object offset data).drop count = object.drop count := by
  have hfront : (object.take offset ++ data).length = offset + data.length := by
    rw [List.length_append, List.length_take]
    omega
  unfold overwrite
  rw [List.drop_append, hfront, List.drop_drop, List.drop_of_length_le (by omega), List.nil_append]
  congr 1
  omega

theorem slice_overwrite_before {start length : ℕ} (h : start + length ≤ offset)
    (hinside : offset ≤ object.length) :
    slice (overwrite object offset data) start length = slice object start length := by
  rw [← slice_of_take _ (Nat.le_refl (start + length)), take_overwrite_of_le h hinside,
    slice_of_take _ Nat.le.refl]

theorem slice_overwrite_behind {start length : ℕ} (h : offset + data.length ≤ start)
    (hinside : offset + data.length ≤ object.length) :
    slice (overwrite object offset data) start length = slice object start length := by
  rw [slice, drop_overwrite_of_le h hinside, slice]

/-- The range that was overwritten. -/
theorem slice_overwrite_self (h : offset + data.length ≤ object.length) :
    slice (overwrite object offset data) offset data.length = data := by
  have hfront : (object.take offset).length = offset := by
    rw [List.length_take]
    omega
  calc slice (overwrite object offset data) offset data.length
      = slice (object.take offset ++ (data ++ object.drop (offset + data.length)))
          (object.take offset).length data.length := by
        rw [overwrite, List.append_assoc, hfront]
    _ = data := by rw [slice_append_right, List.take_left]

@[simp] theorem overwrite_nil (object : List α) (offset : ℕ) : overwrite object offset [] = object := by
  rw [overwrite, List.append_nil, List.length_nil, Nat.add_zero, List.take_append_drop]

/-- Two adjacent writes are one. -/
theorem overwrite_overwrite {more : List α} (h : offset + data.length ≤ object.length) :
    overwrite (overwrite object offset data) (offset + data.length) more =
      overwrite object offset (data ++ more) := by
  conv_lhs => rw [overwrite]
  rw [take_overwrite h, List.append_assoc, drop_overwrite_of_le (Nat.le_add_right _ _) h, overwrite,
    List.length_append, Nat.add_assoc, List.append_assoc, List.append_assoc, List.append_assoc]

end Overwrite

end Memory
