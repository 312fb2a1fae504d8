import Eiows.Memory.Range
import Mathlib.Algebra.Group.Int.Defs
import Mathlib.Data.Int.Order.Basic

/-!
# Checked computations

A computation on machine integers and objects in memory, which stops at the first
access outside of an object and at the first result that its type cannot hold.
-/

namespace Memory

variable {α : Type*}

/-- Why a computation stops. -/
inductive Fault where
  /-- An access outside of its object. -/
  | bounds
  /-- The result of an operation does not fit its type. -/
  | overflow
  /-- A value does not fit the bit-field that it is stored in. -/
  | truncation
  deriving DecidableEq, Repr

/-- A computation that checks its steps. -/
abbrev Checked (α : Type*) := Except Fault α

/-- Read a range of an object. -/
def load (object : List α) (offset length : ℕ) : Checked (List α) :=
  if offset + length ≤ object.length then .ok (slice object offset length) else .error .bounds

/-- Write a range of an object. -/
def store (object : List α) (offset : ℕ) (data : List α) : Checked (List α) :=
  if offset + data.length ≤ object.length then .ok (overwrite object offset data)
  else .error .bounds

/-- The result of unsigned arithmetic in `bits` bits. -/
def unsigned (bits : ℕ) (value : ℕ) : Checked ℕ :=
  if value < 2 ^ bits then .ok value else .error .overflow

/-- Unsigned subtraction. -/
def unsignedSub (minuend subtrahend : ℕ) : Checked ℕ :=
  if subtrahend ≤ minuend then .ok (minuend - subtrahend) else .error .overflow

/-- A natural number as the result of signed arithmetic in `bits` bits. -/
def signed (bits : ℕ) (value : ℕ) : Checked ℕ :=
  if value < 2 ^ (bits - 1) then .ok value else .error .overflow

/-- A value stored in a signed bit-field. -/
def bitField (bits : ℕ) (value : ℤ) : Checked ℤ :=
  if -2 ^ (bits - 1) ≤ value ∧ value < 2 ^ (bits - 1) then .ok value else .error .truncation

/-- A value stored in an unsigned bit-field. -/
def unsignedField (bits : ℕ) (value : ℕ) : Checked ℕ :=
  if value < 2 ^ bits then .ok value else .error .truncation

/-- An index of an array. -/
def indexed (size : ℕ) (index : ℤ) : Checked ℕ :=
  if 0 ≤ index ∧ index < size then .ok index.toNat else .error .bounds

/-- A sequence that succeeds succeeds in its first step. -/
theorem bind_eq_ok {α β : Type} {x : Checked α} {f : α → Checked β} {b : β}
    (h : (x >>= f) = .ok b) : ∃ a, x = .ok a ∧ f a = .ok b := by
  cases x with
  | error fault => cases h
  | ok a => exact ⟨a, rfl, h⟩

section Steps

variable {object data : List α} {offset length : ℕ}

theorem load_of_le (h : offset + length ≤ object.length) :
    load object offset length = .ok (slice object offset length) := if_pos h

theorem store_of_le (h : offset + data.length ≤ object.length) :
    store object offset data = .ok (overwrite object offset data) := if_pos h

theorem unsigned_of_lt {bits value : ℕ} (h : value < 2 ^ bits) : unsigned bits value = .ok value :=
  if_pos h

theorem unsignedSub_of_le {minuend subtrahend : ℕ} (h : subtrahend ≤ minuend) :
    unsignedSub minuend subtrahend = .ok (minuend - subtrahend) := if_pos h

theorem signed_of_lt {bits value : ℕ} (h : value < 2 ^ (bits - 1)) : signed bits value = .ok value :=
  if_pos h

theorem signed_of_le {bits value : ℕ} (h : 2 ^ (bits - 1) ≤ value) :
    signed bits value = .error .overflow := if_neg (Nat.not_lt.mpr h)

theorem unsignedField_of_lt {bits value : ℕ} (h : value < 2 ^ bits) :
    unsignedField bits value = .ok value := if_pos h

theorem indexed_of_lt {size : ℕ} {index : ℤ} (h : 0 ≤ index) (hlt : index < size) :
    indexed size index = .ok index.toNat := if_pos ⟨h, hlt⟩

end Steps

end Memory
