import Mathlib.Data.Nat.Notation
import Mathlib.Logic.Basic

/-!
# The head of a message

A head is a list of lines that end with CRLF, up to an empty line. What follows
belongs to the body.
-/

namespace Http

/-- The end of a line. -/
def CRLF : List UInt8 := [0x0d, 0x0a]

/-- A line without a carriage return or a line feed. -/
def IsPlain (line : List UInt8) : Prop := ∀ c ∈ line, c ≠ 0x0d ∧ c ≠ 0x0a

/-- The lines of a head, each with its end, and the empty line behind them. -/
def writeHead (lines : List (List UInt8)) : List UInt8 := (lines.map (· ++ CRLF)).flatten ++ CRLF

/-- Read lines up to an empty one, where the first part of the first line has been read. The
result has the lines and what follows the head. -/
def readLines : List UInt8 → List UInt8 → Option (List (List UInt8) × List UInt8)
  | 0x0d :: 0x0a :: rest, line =>
    if line = [] then some ([], rest)
    else (readLines rest []).map fun (lines, rest) => (line :: lines, rest)
  | c :: rest, line => readLines rest (line ++ [c])
  | [], _ => none

/-- Read a head. -/
def readHead (input : List UInt8) : Option (List (List UInt8) × List UInt8) := readLines input []

/-- A field. -/
def writeField (name value : List UInt8) : List UInt8 := name ++ 0x3a :: 0x20 :: value

/-- The names of fields are read without regard to case. -/
def lowerName (name : List UInt8) : List UInt8 :=
  name.map fun c => if 0x41 ≤ c ∧ c ≤ 0x5a then c + 0x20 else c

/-- The value of a line that is a field of this name. -/
def fieldValue (name line : List UInt8) : Option (List UInt8) :=
  if 0x3a ∈ line ∧ lowerName (line.takeWhile (· != 0x3a)) = lowerName name then
    some ((line.dropWhile (· != 0x3a)).drop 2)
  else none

/-- The values of the fields of this name, in order. -/
def fieldValues (name : List UInt8) (lines : List (List UInt8)) : List (List UInt8) :=
  lines.filterMap (fieldValue name)

/-- A field is read as it is written. -/
theorem fieldValue_writeField {name' : List UInt8} (h : 0x3a ∉ name') (name value : List UInt8) :
    fieldValue name (writeField name' value) =
      if lowerName name' = lowerName name then some value else none := by
  have hname : ∀ c ∈ name', (c != 0x3a) = true := by
    intro c hc
    rw [bne_iff_ne]
    rintro rfl
    exact h hc
  have htake : (writeField name' value).takeWhile (· != 0x3a) = name' := by
    rw [writeField, List.takeWhile_append_of_pos hname]
    exact List.append_nil name'
  have hdrop : (writeField name' value).dropWhile (· != 0x3a) = 0x3a :: 0x20 :: value := by
    rw [writeField, List.dropWhile_append_of_pos hname]
    rfl
  have hmem : 0x3a ∈ writeField name' value := List.mem_append_right name' List.mem_cons_self
  rw [fieldValue, htake, hdrop]
  simp only [hmem, true_and, List.drop_succ_cons, List.drop_zero]

/-- A line without a colon is no field. -/
theorem fieldValue_of_notMem {line : List UInt8} (h : 0x3a ∉ line) (name : List UInt8) :
    fieldValue name line = none :=
  if_neg fun hfield => h hfield.1

theorem fieldValues_cons (name line : List UInt8) (lines : List (List UInt8)) :
    fieldValues name (line :: lines) =
      (fieldValue name line).toList ++ fieldValues name lines := by
  rw [fieldValues, List.filterMap_cons]
  cases fieldValue name line <;> rfl

theorem fieldValues_append (name : List UInt8) (lines lines' : List (List UInt8)) :
    fieldValues name (lines ++ lines') = fieldValues name lines ++ fieldValues name lines' :=
  List.filterMap_append

theorem isPlain_writeField {name value : List UInt8} (hname : IsPlain name) (hvalue : IsPlain value) :
    IsPlain (writeField name value) := by
  intro c hc
  simp only [writeField, List.mem_append, List.mem_cons] at hc
  obtain hc | rfl | rfl | hc := hc
  · exact hname c hc
  · decide
  · decide
  · exact hvalue c hc

theorem readLines_append {line : List UInt8} (h : IsPlain line) (rest start : List UInt8) :
    readLines (line ++ rest) start = readLines rest (start ++ line) := by
  induction line generalizing start with
  | nil => rw [List.append_nil, List.nil_append]
  | cons c line ih =>
    have hstep : readLines (c :: (line ++ rest)) start = readLines (line ++ rest) (start ++ [c]) := by
      rw [readLines]
      rintro tail rfl -
      exact (h 0x0d List.mem_cons_self).1 rfl
    rw [List.cons_append, hstep, ih (fun d hd => h d (List.mem_cons_of_mem c hd)),
      List.append_assoc, List.singleton_append]

/-- An empty line ends the head. -/
theorem readHead_empty (rest : List UInt8) : readHead (CRLF ++ rest) = some ([], rest) := by
  rfl

/-- A line that is not empty is read, and the head goes on. -/
theorem readHead_line {line : List UInt8} (h : IsPlain line) (hne : line ≠ []) (rest : List UInt8) :
    readHead (line ++ CRLF ++ rest) = (readHead rest).map fun (lines, rest) => (line :: lines, rest) := by
  rw [readHead, List.append_assoc, readLines_append h, List.nil_append, CRLF, List.cons_append,
    List.cons_append, List.nil_append, readLines, if_neg hne]
  rfl

theorem writeHead_cons (line : List UInt8) (lines : List (List UInt8)) (body : List UInt8) :
    writeHead (line :: lines) ++ body = line ++ CRLF ++ (writeHead lines ++ body) := by
  simp only [writeHead, List.map_cons, List.flatten_cons, List.append_assoc]

/-- Behind an empty line the reader misses the rest of the lines. -/
theorem readHead_misses {lines : List (List UInt8)} (hplain : ∀ line ∈ lines, IsPlain line)
    (hempty : [] ∈ lines) (body : List UInt8) :
    ∃ head rest, readHead (writeHead lines ++ body) = some (head, rest) ∧
      head.length < lines.length := by
  induction lines with
  | nil => cases hempty
  | cons line lines ih =>
    rw [writeHead_cons]
    by_cases hline : line = []
    · subst hline
      exact ⟨[], _, readHead_empty _, Nat.succ_pos _⟩
    · have hmem : [] ∈ lines := (List.mem_cons.mp hempty).resolve_left fun h => hline h.symm
      obtain ⟨head, rest, hread, hlength⟩ :=
        ih (fun l hl => hplain l (List.mem_cons_of_mem line hl)) hmem
      refine ⟨line :: head, rest, ?_, Nat.succ_lt_succ hlength⟩
      rw [readHead_line (hplain line List.mem_cons_self) hline, hread]
      rfl

/-- Writing a head and reading it is exact if and only if no line is empty. -/
theorem readHead_writeHead_iff {lines : List (List UInt8)} (hplain : ∀ line ∈ lines, IsPlain line)
    (body : List UInt8) :
    readHead (writeHead lines ++ body) = some (lines, body) ↔ [] ∉ lines := by
  constructor
  · intro h hempty
    obtain ⟨head, rest, hread, hlength⟩ := readHead_misses hplain hempty body
    rw [h] at hread
    cases hread
    exact Nat.lt_irrefl _ hlength
  · intro hne
    induction lines with
    | nil => exact readHead_empty body
    | cons line lines ih =>
      have hline : line ≠ [] := fun h => hne (h ▸ List.mem_cons_self)
      rw [writeHead_cons, readHead_line (hplain line List.mem_cons_self) hline,
        ih (fun l hl => hplain l (List.mem_cons_of_mem line hl))
          fun hmem => hne (List.mem_cons_of_mem line hmem)]
      rfl

end Http
