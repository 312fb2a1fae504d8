import Eiows.Memory.Range
import Eiows.Transport.WriteRequest

/-!
# The storage of an input part

A part of a write request is a pointer and a length. The bytes belong to a
JavaScript buffer, to the request itself, or to a string that the part owns. A
short string keeps its characters inside its own object, so a pointer to them
dangles once the part has been moved. This file says what a pointer reads, and
which bytes a part holds once its pointer is recomputed.
-/

namespace Eiows

open Memory

/-- A `std::string` and the address of its characters. -/
structure OwnedString where
  data : Bytes := []
  address : ℕ := 0
  deriving DecidableEq

/-- A `char *`, by the object that it points into. -/
inductive Pointer where
  /-- `nullptr`. -/
  | null
  /-- The backing store of a buffer. -/
  | external (block : Bytes) (offset : ℕ)
  /-- `WriteRequest::inlineBytes`. -/
  | inlineBytes (offset : ℕ)
  /-- The characters of a string. -/
  | string (address offset : ℕ)
  deriving DecidableEq

/-- Pointer arithmetic. -/
def Pointer.add (length : ℕ) : Pointer → Pointer
  | .null => .null
  | .external block offset => .external block (offset + length)
  | .inlineBytes offset => .inlineBytes (offset + length)
  | .string address offset => .string address (offset + length)

/-- Read through a pointer. The string of another address is gone. -/
def Pointer.load (memory : Bytes) (owned : OwnedString) (length : ℕ) : Pointer → Option Bytes
  | .null => if length = 0 then some [] else none
  | .external block offset => if length = 0 then some [] else readRange block offset length
  | .inlineBytes offset => if length = 0 then some [] else readRange memory offset length
  | .string address offset =>
    if length = 0 then some []
    else if address = owned.address then readRange owned.data offset length
    else none

/-- `InputPart`. -/
structure InputPart where
  owned : OwnedString := {}
  pointer : Pointer := .null
  length : ℕ := 0
  ownedOffset : ℕ := 0
  deriving DecidableEq

namespace Pointer

variable {memory : Bytes} {owned : OwnedString} {p : Pointer} {data : Bytes} {length : ℕ}

@[simp] theorem load_zero (p : Pointer) : p.load memory owned 0 = some [] := by
  cases p <;> rfl

theorem load_length (h : p.load memory owned length = some data) : data.length = length := by
  by_cases hzero : length = 0
  · rw [hzero, load_zero] at h
    cases h
    exact hzero.symm
  · cases p with
    | null => simp [load, hzero] at h
    | external block offset =>
      simp only [load, if_neg hzero] at h
      exact readRange_length h
    | inlineBytes offset =>
      simp only [load, if_neg hzero] at h
      exact readRange_length h
    | string address offset =>
      simp only [load, if_neg hzero] at h
      split_ifs at h
      exact readRange_length h

/-- A part of what can be read can be read. -/
theorem load_sub {skip count : ℕ} (h : p.load memory owned length = some data)
    (hcount : skip + count ≤ length) :
    (p.add skip).load memory owned count = some ((data.drop skip).take count) := by
  by_cases hnone : count = 0
  · rw [hnone, load_zero, List.take_zero]
  · have hzero : length ≠ 0 := by omega
    cases p with
    | null => simp [load, hzero] at h
    | external block offset =>
      simp only [load, if_neg hzero] at h
      simp only [load, add, if_neg hnone]
      exact readRange_sub h hcount
    | inlineBytes offset =>
      simp only [load, if_neg hzero] at h
      simp only [load, add, if_neg hnone]
      exact readRange_sub h hcount
    | string address offset =>
      simp only [load, if_neg hzero] at h
      simp only [load, add, if_neg hnone]
      split_ifs at h ⊢
      exact readRange_sub h hcount

@[simp] theorem add_zero (p : Pointer) : p.add 0 = p := by
  cases p <;> rfl

/-- The start of what can be read can be read. -/
theorem load_take {count : ℕ} (h : p.load memory owned length = some data)
    (hcount : count ≤ length) : p.load memory owned count = some (data.take count) := by
  have hload := load_sub h (by omega : 0 + count ≤ length)
  rwa [add_zero, List.drop_zero] at hload

/-- Nothing is read from a string without characters. -/
theorem load_string_empty {address offset : ℕ} (hempty : owned.data = [])
    (h : (string address offset).load memory owned length = some data) : length = 0 := by
  by_contra hzero
  simp only [load, if_neg hzero] at h
  split_ifs at h
  have hnone : readRange owned.data offset length = none := by
    rw [readRange, if_neg (by rw [hempty, List.length_nil]; omega)]
  rw [hnone] at h
  cases h

end Pointer

namespace InputPart

variable {memory : Bytes} {p : InputPart} {data : Bytes}

/-- The bytes that a part exposes. -/
def view (memory : Bytes) (p : InputPart) : Option Bytes := p.pointer.load memory p.owned p.length

/-- Recompute the pointer to an owned string, as `prepare` does. -/
def repoint (p : InputPart) : InputPart :=
  if p.owned.data = [] then p else { p with pointer := .string p.owned.address p.ownedOffset }

/-- The pointer to an owned string agrees with `ownedOffset`. -/
def Consistent (p : InputPart) : Prop :=
  p.owned.data ≠ [] → p.pointer = .string p.owned.address p.ownedOffset

/-- The bytes of a part once its pointer is recomputed. -/
def Holds (memory : Bytes) (p : InputPart) (data : Bytes) : Prop := p.repoint.view memory = some data

/-- A part whose bytes lie in the request. -/
def InRequest (p : InputPart) : Prop := ∃ offset, p.repoint.pointer = .inlineBytes offset

/-- `InputPart(InputPart &&)`: a string of at most `shortCapacity` characters gets
a new address. -/
def moveTo (shortCapacity address : ℕ) (p : InputPart) : InputPart :=
  if p.owned.data.length ≤ shortCapacity then
    { p with owned := { p.owned with address := address } }
  else p

/-- Leave out the first bytes of a part, as `coalescePrefix` does. -/
def skip (consume : ℕ) (p : InputPart) : InputPart :=
  { p with
    pointer := p.pointer.add consume
    length := p.length - consume
    ownedOffset := if p.owned.data = [] then p.ownedOffset else p.ownedOffset + consume }

@[simp] theorem repoint_length (p : InputPart) : p.repoint.length = p.length := by
  unfold repoint
  split_ifs <;> rfl

@[simp] theorem repoint_owned (p : InputPart) : p.repoint.owned = p.owned := by
  unfold repoint
  split_ifs <;> rfl

theorem repoint_consistent (p : InputPart) : p.repoint.Consistent := by
  intro hdata
  rw [repoint_owned] at hdata ⊢
  simp only [repoint, if_neg hdata]

/-- A consistent part is not changed. -/
theorem Consistent.repoint (h : p.Consistent) : p.repoint = p := by
  unfold InputPart.repoint
  split_ifs with hdata
  · rfl
  · rw [← h hdata]

theorem view_length (h : p.view memory = some data) : data.length = p.length :=
  Pointer.load_length h

theorem Holds.length (h : p.Holds memory data) : data.length = p.length := by
  rw [← repoint_length]
  exact view_length h

/-- A moved part holds the same bytes, wherever its string now is. -/
theorem Holds.moveTo (h : p.Holds memory data) (shortCapacity address : ℕ) :
    (p.moveTo shortCapacity address).Holds memory data := by
  unfold InputPart.moveTo
  split_ifs with hshort
  · by_cases hempty : p.owned.data = []
    · simp only [Holds, InputPart.repoint, if_pos hempty, view] at h ⊢
      cases hpointer : p.pointer with
      | string address' offset =>
        rw [hpointer] at h
        have hzero := Pointer.load_string_empty hempty h
        rw [hzero, Pointer.load_zero] at h ⊢
        exact h
      | _ => rw [hpointer] at h; exact h
    · simp only [Holds, InputPart.repoint, if_neg hempty, view, Pointer.load, if_true] at h ⊢
      exact h
  · exact h

/-- The rest of a part holds the rest of its bytes. -/
theorem Holds.skip (h : p.Holds memory data) {consume : ℕ} (hconsume : consume ≤ data.length) :
    (p.skip consume).Holds memory (data.drop consume) := by
  have hlength := h.length
  have hrest : (data.drop consume).take (p.length - consume) = data.drop consume := by
    apply List.take_of_length_le
    rw [List.length_drop]
    omega
  have hle : consume + (p.length - consume) ≤ p.length := by omega
  by_cases hempty : p.owned.data = []
  · simp only [Holds, InputPart.repoint, InputPart.skip, if_pos hempty, view] at h ⊢
    rw [← hrest]
    exact Pointer.load_sub h hle
  · simp only [Holds, InputPart.repoint, InputPart.skip, if_neg hempty, view] at h ⊢
    rw [← hrest]
    exact Pointer.load_sub h hle

/-- Bytes outside the request do not depend on it. -/
theorem Holds.outside (h : p.Holds memory data) (houtside : ¬p.InRequest) (memory' : Bytes) :
    p.Holds memory' data := by
  unfold Holds view at h ⊢
  cases hpointer : p.repoint.pointer with
  | inlineBytes offset => exact absurd ⟨offset, hpointer⟩ houtside
  | _ => rw [hpointer] at h; exact h

theorem not_inRequest_moveTo (h : ¬p.InRequest) (shortCapacity address : ℕ) :
    ¬(p.moveTo shortCapacity address).InRequest := by
  rintro ⟨offset, hpointer⟩
  apply h
  refine ⟨offset, ?_⟩
  unfold InputPart.moveTo at hpointer
  unfold InputPart.repoint at hpointer ⊢
  split_ifs at hpointer ⊢ <;> simp_all

theorem not_inRequest_skip (h : ¬p.InRequest) (consume : ℕ) : ¬(p.skip consume).InRequest := by
  rintro ⟨offset, hpointer⟩
  apply h
  simp only [InRequest, InputPart.repoint, InputPart.skip] at hpointer ⊢
  split_ifs at hpointer ⊢ with hempty
  · cases hold : p.pointer with
    | inlineBytes offset' => exact ⟨offset', rfl⟩
    | _ => rw [hold] at hpointer; cases hpointer

end InputPart

end Eiows
