import Eiows.Negotiation.Grammar

/-!
# The position of the extension parser

`ExtensionsParser` moves an index over its input. Here every access to the input
is checked: `none` stands for an access at or beyond its end. The index reads what
the functions on lists read, and never leaves the input.
-/

namespace Eiows.ExtensionsParser.Positions

variable (input : Bytes)

/-- A loop that moves `position` over the characters of a class. -/
def scan (p : UInt8 → Bool) (position : ℕ) : Option ℕ :=
  if position < input.length then
    match input[position]? with
    | none => none
    | some character => if p character then scan p (position + 1) else some position
  else some position
  termination_by input.length - position

/-- `skipWhitespace`. -/
def skipWhitespace (position : ℕ) : Option ℕ := scan input isWhitespace position

/-- `readToken`. -/
def readToken (start : ℕ) : Option (Option Bytes × ℕ) :=
  match scan input isTokenCharacter start with
  | none => none
  | some position =>
    if position = start then some (none, position)
    else some (some (lowerAscii ((input.drop start).take (position - start))), position)

/-- The loop of `readQuotedString`, behind the opening quote. -/
def readQuotedText (position : ℕ) (value : Bytes) : Option (Option Bytes × ℕ) :=
  if position < input.length then
    match input[position]? with
    | none => none
    | some character =>
      if character = 0x22 then some (some value, position + 1)
      else if character = 0x5c then
        if position + 1 = input.length then some (none, position + 1)
        else
          match input[position + 1]? with
          | none => none
          | some escaped =>
            if isControl escaped then some (none, position + 2)
            else readQuotedText (position + 2) (value ++ [escaped])
      else if isQuotedText character then readQuotedText (position + 1) (value ++ [character])
      else some (none, position + 1)
  else some (none, position)
  termination_by input.length - position

/-- `readQuotedString`. -/
def readQuotedString (position : ℕ) : Option (Option Bytes × ℕ) :=
  if position = input.length then some (none, position)
  else
    match input[position]? with
    | none => none
    | some character =>
      if character = 0x22 then readQuotedText input (position + 1) [] else some (none, position)

/-- `position < input.size() && input[position] == '"'`. -/
def atQuote (position : ℕ) : Option Bool :=
  if position < input.length then input[position]?.map (· == 0x22) else some false

/-- The value of `readParameter`. -/
def readValue (position : ℕ) : Option (Option Bytes × ℕ) :=
  match atQuote input position with
  | none => none
  | some true => readQuotedString input position
  | some false => readToken input position

/-- `readParameter`, behind the name. -/
def readAssignment (name : Bytes) (position : ℕ) : Option (Option ExtensionParameter × ℕ) :=
  match skipWhitespace input position with
  | none => none
  | some position =>
    if position = input.length then some (some { name }, position)
    else
      match input[position]? with
      | none => none
      | some character =>
        if character ≠ 0x3d then some (some { name }, position)
        else
          match skipWhitespace input (position + 1) with
          | none => none
          | some position =>
            (readValue input position).map fun r =>
              (r.1.map fun value => { name, value, hasValue := true }, r.2)

/-- `readParameter`. -/
def readParameter (position : ℕ) : Option (Option ExtensionParameter × ℕ) :=
  match skipWhitespace input position with
  | none => none
  | some position =>
    match readToken input position with
    | none => none
    | some (none, position) => some (none, position)
    | some (some name, position) => readAssignment input name position

variable {input}

/-- A reader at a position does what the reader of the remaining text does, and
ends inside the input. -/
def Agrees {α : Type} (input : Bytes) (result : Option (α × Bytes))
    (m : Option (Option α × ℕ)) : Prop :=
  ∃ position ≤ input.length, m = some (result.map Prod.fst, position) ∧
    ∀ v rest, result = some (v, rest) → rest = input.drop position

theorem Agrees.refuses {α : Type} {position : ℕ} (h : position ≤ input.length) :
    Agrees (α := α) input none (some (none, position)) :=
  ⟨position, h, rfl, fun _ _ hnone => by cases hnone⟩

theorem Agrees.reads {α : Type} {position : ℕ} (h : position ≤ input.length) (v : α) :
    Agrees input (some (v, input.drop position)) (some (some v, position)) := by
  refine ⟨position, h, rfl, ?_⟩
  rintro v' rest ⟨⟩
  rfl

theorem Agrees.of_none {α : Type} {result : Option (α × Bytes)} {position : ℕ}
    (h : Agrees input result (some (none, position))) :
    result = none ∧ position ≤ input.length := by
  obtain ⟨position', hle, heq, -⟩ := h
  cases result with
  | none =>
    cases heq
    exact ⟨rfl, hle⟩
  | some _ => cases heq

theorem Agrees.of_some {α : Type} {result : Option (α × Bytes)} {position : ℕ} {v : α}
    (h : Agrees input result (some (some v, position))) :
    result = some (v, input.drop position) ∧ position ≤ input.length := by
  obtain ⟨position', hle, heq, hrest⟩ := h
  cases result with
  | none => cases heq
  | some read =>
    obtain ⟨v', rest⟩ := read
    cases heq
    rw [hrest v' rest rfl]
    exact ⟨rfl, hle⟩

theorem Agrees.not_fault {α : Type} {result : Option (α × Bytes)}
    (h : Agrees input result none) : False := by
  obtain ⟨_, _, heq, _⟩ := h
  cases heq

theorem drop_of_get {position : ℕ} {c : UInt8} (h : input[position]? = some c) :
    input.drop position = c :: input.drop (position + 1) := by
  obtain ⟨hlt, hget⟩ := List.getElem?_eq_some_iff.mp h
  rw [List.drop_eq_getElem_cons hlt, hget]

theorem get_lt {position : ℕ} (h : position < input.length) : ∃ c, input[position]? = some c :=
  ⟨_, List.getElem?_eq_getElem h⟩

theorem scan_le {p : UInt8 → Bool} {position position' : ℕ}
    (h : scan input p position = some position') : position ≤ position' := by
  fun_induction scan input p position with
  | case1 => cases h
  | case2 position hlt c hread hc ih =>
    have hnext := ih h
    omega
  | case3 => cases h; rfl
  | case4 => cases h; rfl

/-- The loop stops where the class ends. -/
theorem scan_spec (p : UInt8 → Bool) {position : ℕ} (h : position ≤ input.length) :
    ∃ position', scan input p position = some position' ∧ position ≤ position' ∧
      position' ≤ input.length ∧ input.drop position' = (input.drop position).dropWhile p ∧
      (input.drop position).take (position' - position) = (input.drop position).takeWhile p := by
  fun_induction scan input p position with
  | case1 position hlt hread =>
    obtain ⟨c, hc⟩ := get_lt hlt
    cases hread.symm.trans hc
  | case2 position hlt c hread hc ih =>
    obtain ⟨position', hscan, hle, hend, hdrop, htake⟩ := ih hlt
    refine ⟨position', hscan, by omega, hend, ?_, ?_⟩
    · rw [hdrop, drop_of_get hread, List.dropWhile_cons_of_pos hc]
    · obtain ⟨count, rfl⟩ : ∃ count, position' = position + 1 + count := ⟨_, (Nat.add_sub_of_le hle).symm⟩
      rw [drop_of_get hread, List.takeWhile_cons_of_pos hc, ← htake]
      have hcount : position + 1 + count - position = count + 1 := by omega
      rw [hcount, Nat.add_sub_cancel_left, List.take_succ_cons]
  | case3 position hlt c hread hc =>
    refine ⟨position, rfl, le_rfl, h, ?_, ?_⟩
    · rw [drop_of_get hread, List.dropWhile_cons_of_neg hc]
    · rw [drop_of_get hread, List.takeWhile_cons_of_neg hc, Nat.sub_self, List.take_zero]
  | case4 position hge =>
    obtain rfl : position = input.length := by omega
    refine ⟨input.length, rfl, le_rfl, le_rfl, ?_, ?_⟩ <;> simp

theorem skipWhitespace_spec {position : ℕ} (h : position ≤ input.length) :
    ∃ position', skipWhitespace input position = some position' ∧ position ≤ position' ∧
      position' ≤ input.length ∧
      input.drop position' = ExtensionsParser.skipWhitespace (input.drop position) := by
  obtain ⟨position', hscan, hle, hend, hdrop, -⟩ := scan_spec isWhitespace h
  exact ⟨position', hscan, hle, hend, hdrop⟩

theorem readToken_agrees {start : ℕ} (h : start ≤ input.length) :
    Agrees input (ExtensionsParser.readToken (input.drop start)) (readToken input start) := by
  obtain ⟨position, hscan, hle, hend, hdrop, htake⟩ := scan_spec isTokenCharacter h
  refine ⟨position, hend, ?_⟩
  rw [readToken, hscan, ExtensionsParser.readToken, ← htake, ← hdrop]
  by_cases hempty : position = start
  · simp [hempty]
  · have hsome : (input.drop start).take (position - start) ≠ [] := by
      apply List.ne_nil_of_length_pos
      rw [List.length_take, List.length_drop]
      omega
    simp [hempty, hsome]

theorem readQuotedText_agrees {position : ℕ} (h : position ≤ input.length) (value : Bytes) :
    Agrees input (ExtensionsParser.readQuotedText (input.drop position) value)
      (readQuotedText input position value) := by
  fun_induction readQuotedText input position value with
  | case1 position value hlt hread =>
    obtain ⟨c, hc⟩ := get_lt hlt
    cases hread.symm.trans hc
  | case2 position value hlt hread =>
    rw [drop_of_get hread, ExtensionsParser.readQuotedText.eq_def]
    exact .reads hlt value
  | case3 position value hlt hlast hread _ =>
    rw [drop_of_get hread, hlast, List.drop_length, ExtensionsParser.readQuotedText.eq_def]
    exact .refuses le_rfl
  | case4 position value hlt hmore hescaped _ _ =>
    obtain ⟨c, hc⟩ := get_lt (show position + 1 < input.length by omega)
    cases hescaped.symm.trans hc
  | case5 position value hlt hmore escaped hescaped hcontrol hread _ =>
    rw [drop_of_get hread, drop_of_get hescaped, ExtensionsParser.readQuotedText.eq_def]
    simp only [hcontrol, if_true]
    exact .refuses (by omega)
  | case6 position value hlt hmore escaped hescaped hcontrol hread _ ih =>
    have hrest := ih (by omega)
    rw [drop_of_get hread, drop_of_get hescaped, ExtensionsParser.readQuotedText.eq_def]
    simp only [hcontrol]
    exact hrest
  | case7 position value hlt c hread hquote hbackslash htext ih =>
    have hrest := ih hlt
    rw [drop_of_get hread, ExtensionsParser.readQuotedText.eq_def]
    simp only [if_neg hquote, if_neg hbackslash, if_pos htext]
    exact hrest
  | case8 position value hlt c hread hquote hbackslash htext =>
    rw [drop_of_get hread, ExtensionsParser.readQuotedText.eq_def]
    simp only [if_neg hquote, if_neg hbackslash, if_neg htext]
    exact .refuses hlt
  | case9 position value hge =>
    obtain rfl : position = input.length := by omega
    rw [List.drop_length, ExtensionsParser.readQuotedText.eq_def]
    exact .refuses le_rfl

theorem readQuotedString_agrees {position : ℕ} (h : position ≤ input.length) :
    Agrees input (ExtensionsParser.readQuotedString (input.drop position))
      (readQuotedString input position) := by
  unfold readQuotedString
  split
  · next hend =>
    rw [hend, List.drop_length]
    exact .refuses le_rfl
  · next hmore =>
    obtain ⟨c, hc⟩ := get_lt (show position < input.length by omega)
    rw [drop_of_get hc, ExtensionsParser.readQuotedString]
    simp only [hc]
    split
    · exact readQuotedText_agrees (by omega) []
    · exact .refuses h

theorem readValue_agrees {position : ℕ} (h : position ≤ input.length) :
    Agrees input (ExtensionsParser.readValue (input.drop position)) (readValue input position) := by
  unfold readValue atQuote ExtensionsParser.readValue
  by_cases hlt : position < input.length
  · obtain ⟨c, hc⟩ := get_lt hlt
    rw [if_pos hlt, hc, Option.map_some]
    by_cases hquote : c = 0x22
    · have hagrees := readQuotedString_agrees h
      rw [drop_of_get hc] at hagrees ⊢
      subst hquote
      rw [List.head?_cons, if_pos rfl]
      exact hagrees
    · have hagrees := readToken_agrees h
      rw [drop_of_get hc] at hagrees ⊢
      rw [List.head?_cons, if_neg (by simpa using hquote), beq_false_of_ne hquote]
      exact hagrees
  · obtain rfl : position = input.length := by omega
    have hagrees := readToken_agrees h
    rw [if_neg hlt]
    rw [List.drop_length] at hagrees ⊢
    exact hagrees

theorem readAssignment_agrees (name : Bytes) {position : ℕ} (h : position ≤ input.length) :
    Agrees input (match ExtensionsParser.skipWhitespace (input.drop position) with
      | [] => some ({ name }, [])
      | character :: rest =>
        if character ≠ 0x3d then some ({ name }, character :: rest)
        else
          match ExtensionsParser.readValue (ExtensionsParser.skipWhitespace rest) with
          | none => none
          | some (value, rest) => some ({ name, value, hasValue := true }, rest))
      (readAssignment input name position) := by
  obtain ⟨start, hskip, -, hstart, hdrop⟩ := skipWhitespace_spec h
  unfold readAssignment
  simp only [hskip, ← hdrop]
  by_cases hend : start = input.length
  · rw [if_pos hend, hend, List.drop_length]
    exact ⟨input.length, le_rfl, rfl, by simp⟩
  · have hlt : start < input.length := by omega
    obtain ⟨c, hc⟩ := get_lt hlt
    rw [if_neg hend, drop_of_get hc]
    simp only [hc]
    split
    · rw [← drop_of_get hc]
      exact .reads hstart _
    · obtain ⟨next, hskip', -, hnext, hdrop'⟩ := skipWhitespace_spec (Nat.succ_le_of_lt hlt)
      obtain ⟨last, hlast, hvalue, hrest⟩ := readValue_agrees hnext
      simp only [hskip', ← hdrop', hvalue, Option.map_some]
      cases hread : ExtensionsParser.readValue (input.drop next) with
      | none => exact .refuses hlast
      | some result =>
        obtain ⟨value, rest⟩ := result
        obtain rfl := hrest value rest hread
        exact .reads hlast _

theorem readParameter_agrees {position : ℕ} (h : position ≤ input.length) :
    Agrees input (ExtensionsParser.readParameter (input.drop position))
      (readParameter input position) := by
  obtain ⟨start, hskip, -, hstart, hdrop⟩ := skipWhitespace_spec h
  obtain ⟨next, hnext, htoken, hrest⟩ := readToken_agrees hstart
  unfold readParameter ExtensionsParser.readParameter
  simp only [hskip, htoken, ← hdrop]
  cases hread : ExtensionsParser.readToken (input.drop start) with
  | none => exact .refuses hnext
  | some token =>
    have hagrees := readAssignment_agrees token.1 hnext
    rw [← hrest token.1 token.2 hread] at hagrees
    exact hagrees

/-- A parameter is not empty. -/
theorem readParameter_lt {start next : ℕ} {parameter : ExtensionParameter}
    (hstart : start < input.length)
    (h : readParameter input (start + 1) = some (some parameter, next)) : start + 1 < next := by
  obtain ⟨position, hposition, hagrees, hrest⟩ := readParameter_agrees (Nat.succ_le_of_lt hstart)
  rw [hagrees] at h
  cases hread : ExtensionsParser.readParameter (input.drop (start + 1)) with
  | none =>
    rw [hread] at h
    cases h
  | some result =>
    obtain ⟨parameter', rest⟩ := result
    have hlength := readParameter_length hread
    rw [hread] at h
    cases h
    rw [hrest parameter' rest hread, List.length_drop, List.length_drop] at hlength
    omega

variable (input)

/-- The inner loop of `parse`. -/
def readParameters (position : ℕ) (parameters : List ExtensionParameter) :
    Option (Option (List ExtensionParameter) × ℕ) :=
  match _hskip : skipWhitespace input position with
  | none => none
  | some start =>
    if start = input.length then some (some parameters, start)
    else
      match _hread : input[start]? with
      | none => none
      | some character =>
        if character = 0x2c then some (some parameters, start)
        else if character ≠ 0x3b then some (none, start + 1)
        else
          match _h : readParameter input (start + 1) with
          | none => none
          | some (none, position) => some (none, position)
          | some (some parameter, next) => readParameters next (parameters ++ [parameter])
  termination_by input.length - position
  decreasing_by
    have hlt := (List.getElem?_eq_some_iff.mp _hread).1
    have hskip := scan_le _hskip
    have hnext := readParameter_lt hlt _h
    omega

variable {input}

/-- A token is not empty. -/
theorem readToken_lt {start next : ℕ} {name : Bytes}
    (h : readToken input start = some (some name, next)) : start < next ∧ start < input.length := by
  unfold readToken at h
  split at h
  · cases h
  · next position hscan =>
    have hle := scan_le hscan
    split_ifs at h with hempty
    · cases h
    · cases h
      refine ⟨by omega, ?_⟩
      by_contra hend
      rw [scan, if_neg hend] at hscan
      exact hempty (Option.some.inj hscan).symm

theorem readParameters_le {position last : ℕ} {parameters parameters' : List ExtensionParameter}
    (h : readParameters input position parameters = some (some parameters', last)) :
    position ≤ last := by
  fun_induction readParameters input position parameters with
  | case1 => cases h
  | case2 position parameters hskip =>
    cases h
    exact scan_le hskip
  | case3 => cases h
  | case4 position parameters start hskip =>
    cases h
    exact scan_le hskip
  | case5 => cases h
  | case6 => cases h
  | case7 => cases h
  | case8 position parameters start hskip hend character hread _ _ parameter next hparameter ih =>
    have hstart := scan_le hskip
    have hnext := readParameter_lt (List.getElem?_eq_some_iff.mp hread).1 hparameter
    have hlast := ih h
    omega

variable (input)

/-- The outer loop of `parse`. -/
def readOffers (position : ℕ) (offers : List ExtensionOffer) :
    Option (Option (List ExtensionOffer) × ℕ) :=
  match _hname : readToken input position with
  | none => none
  | some (none, position) => some (none, position)
  | some (some name, next) =>
    match _hparameters : readParameters input next [] with
    | none => none
    | some (none, position) => some (none, position)
    | some (some parameters, last) =>
      if last = input.length then some (some (offers ++ [{ name, parameters }]), last)
      else
        match _hskip : skipWhitespace input (last + 1) with
        | none => none
        | some start =>
          if start = input.length then some (none, start)
          else readOffers start (offers ++ [{ name, parameters }])
  termination_by input.length - position
  decreasing_by
    have hname := readToken_lt _hname
    have hparameters := readParameters_le _hparameters
    have hskip := scan_le _hskip
    omega

/-- `parse`. -/
def parse : Option (Option (List ExtensionOffer) × ℕ) :=
  match skipWhitespace input 0 with
  | none => none
  | some position =>
    if position = input.length then some (some [], position) else readOffers input position []

variable {input}

theorem readParameters_refused {text rest : Bytes} {parameters : List ExtensionParameter}
    {character : UInt8} (hskip : ExtensionsParser.skipWhitespace text = character :: rest)
    (hrefused : (character ≠ 0x2c ∧ character ≠ 0x3b) ∨
      (character = 0x3b ∧ ExtensionsParser.readParameter rest = none)) :
    ExtensionsParser.readParameters text parameters = none := by
  rw [ExtensionsParser.readParameters]
  split
  · next hnil => cases hskip.symm.trans hnil
  · next hcons =>
    cases hskip.symm.trans hcons
    rcases hrefused with ⟨hcomma, hsemicolon⟩ | ⟨rfl, hparameter⟩
    · rw [if_neg hcomma, if_pos hsemicolon]
    · rw [if_neg (by decide), if_neg (by simp)]
      split
      · rfl
      · next hsome => cases hparameter.symm.trans hsome

theorem readParameters_agrees {position : ℕ} (h : position ≤ input.length)
    (parameters : List ExtensionParameter) :
    Agrees input (ExtensionsParser.readParameters (input.drop position) parameters)
      (readParameters input position parameters) := by
  fun_induction readParameters input position parameters with
  | case1 position parameters hskip =>
    obtain ⟨start, hstart, -⟩ := skipWhitespace_spec h
    cases hskip.symm.trans hstart
  | case2 position parameters hskip =>
    obtain ⟨start, hstart, -, -, hdrop⟩ := skipWhitespace_spec h
    cases hskip.symm.trans hstart
    rw [List.drop_length] at hdrop
    rw [readParameters_end hdrop.symm, ← List.drop_length (l := input)]
    exact .reads le_rfl parameters
  | case3 position parameters start hskip hend hread =>
    obtain ⟨start', hstart, -, hle, -⟩ := skipWhitespace_spec h
    cases hskip.symm.trans hstart
    obtain ⟨c, hc⟩ := get_lt (show start < input.length by omega)
    cases hread.symm.trans hc
  | case4 position parameters start hskip hend hread =>
    obtain ⟨start', hstart, -, hle, hdrop⟩ := skipWhitespace_spec h
    cases hskip.symm.trans hstart
    rw [drop_of_get hread] at hdrop
    rw [readParameters_comma hdrop.symm, ← drop_of_get hread]
    exact .reads hle parameters
  | case5 position parameters start hskip hend character hread hcomma hsemicolon =>
    obtain ⟨start', hstart, -, hle, hdrop⟩ := skipWhitespace_spec h
    cases hskip.symm.trans hstart
    rw [drop_of_get hread] at hdrop
    rw [readParameters_refused hdrop.symm (.inl ⟨hcomma, hsemicolon⟩)]
    exact .refuses (List.getElem?_eq_some_iff.mp hread).1
  | case6 position parameters start hskip hend character hread hcomma hsemicolon hparameter =>
    have hagrees := readParameter_agrees (Nat.succ_le_of_lt (List.getElem?_eq_some_iff.mp hread).1)
    rw [hparameter] at hagrees
    exact hagrees.not_fault.elim
  | case7 position parameters start hskip hend character hread hcomma hsemicolon next hparameter =>
    obtain ⟨start', hstart, -, -, hdrop⟩ := skipWhitespace_spec h
    cases hskip.symm.trans hstart
    rw [drop_of_get hread] at hdrop
    have hagrees := readParameter_agrees (Nat.succ_le_of_lt (List.getElem?_eq_some_iff.mp hread).1)
    rw [hparameter] at hagrees
    obtain ⟨hnone, hnext⟩ := hagrees.of_none
    rw [readParameters_refused hdrop.symm (.inr ⟨not_not.mp hsemicolon, hnone⟩)]
    exact .refuses hnext
  | case8 position parameters start hskip hend character hread hcomma hsemicolon parameter next
      hparameter ih =>
    obtain ⟨start', hstart, -, -, hdrop⟩ := skipWhitespace_spec h
    cases hskip.symm.trans hstart
    rw [drop_of_get hread, not_not.mp hsemicolon] at hdrop
    have hagrees := readParameter_agrees (Nat.succ_le_of_lt (List.getElem?_eq_some_iff.mp hread).1)
    rw [hparameter] at hagrees
    obtain ⟨hsome, hnext⟩ := hagrees.of_some
    rw [readParameters_semicolon hdrop.symm hsome]
    exact ih hnext

theorem readOffers_eq (text : Bytes) (offers : List ExtensionOffer) :
    ExtensionsParser.readOffers text offers =
      (ExtensionsParser.readToken text).bind fun token =>
        (ExtensionsParser.readParameters token.2 []).bind fun r =>
          if r.2 = [] then some (offers ++ [{ name := token.1, parameters := r.1 }])
          else if ExtensionsParser.skipWhitespace r.2.tail = [] then none
          else ExtensionsParser.readOffers (ExtensionsParser.skipWhitespace r.2.tail)
            (offers ++ [{ name := token.1, parameters := r.1 }]) := by
  rw [ExtensionsParser.readOffers]
  split
  · next hname => rw [hname, Option.bind_none]
  · next hname =>
    rw [hname, Option.bind_some]
    split
    · next hparameters => rw [hparameters, Option.bind_none]
    · next hparameters =>
      rw [hparameters, Option.bind_some]
      rfl
    · next hparameters =>
      rw [hparameters, Option.bind_some, if_neg (List.cons_ne_nil _ _), List.tail_cons]
      split
      · next hskip => rw [hskip, if_pos rfl]
      · next hskip => rw [hskip, if_neg (List.cons_ne_nil _ _)]

/-- An iteration of the outer loop that reads an offer. -/
theorem readOffers_offer {position next last : ℕ} {name : Bytes}
    {parameters : List ExtensionParameter} (h : position ≤ input.length)
    (hname : readToken input position = some (some name, next))
    (hparameters : readParameters input next [] = some (some parameters, last))
    (offers : List ExtensionOffer) : last ≤ input.length ∧
      ExtensionsParser.readOffers (input.drop position) offers =
        if input.drop last = [] then some (offers ++ [{ name := name, parameters := parameters }])
        else if ExtensionsParser.skipWhitespace (input.drop (last + 1)) = [] then none
        else ExtensionsParser.readOffers (ExtensionsParser.skipWhitespace (input.drop (last + 1)))
          (offers ++ [{ name := name, parameters := parameters }]) := by
  have htoken := readToken_agrees h
  rw [hname] at htoken
  obtain ⟨hsome, hnext⟩ := htoken.of_some
  have hsettings := readParameters_agrees hnext []
  rw [hparameters] at hsettings
  obtain ⟨hsome', hlast⟩ := hsettings.of_some
  refine ⟨hlast, ?_⟩
  rw [readOffers_eq, hsome, Option.bind_some, hsome', Option.bind_some, List.tail_drop]

/-- The outer loop at a position computes what the loop on lists computes. -/
theorem readOffers_spec {position : ℕ} (h : position ≤ input.length)
    (offers : List ExtensionOffer) : ∃ last ≤ input.length,
      readOffers input position offers =
        some (ExtensionsParser.readOffers (input.drop position) offers, last) := by
  fun_induction readOffers input position offers with
  | case1 position offers hname =>
    have htoken := readToken_agrees h
    rw [hname] at htoken
    exact htoken.not_fault.elim
  | case2 position offers next hname =>
    have htoken := readToken_agrees h
    rw [hname] at htoken
    obtain ⟨hnone, hnext⟩ := htoken.of_none
    exact ⟨next, hnext, by rw [readOffers_eq, hnone, Option.bind_none]⟩
  | case3 position offers name next hname hparameters =>
    have htoken := readToken_agrees h
    rw [hname] at htoken
    have hsettings := readParameters_agrees htoken.of_some.2 []
    rw [hparameters] at hsettings
    exact hsettings.not_fault.elim
  | case4 position offers name next hname last hparameters =>
    have htoken := readToken_agrees h
    rw [hname] at htoken
    obtain ⟨hsome, hnext⟩ := htoken.of_some
    have hsettings := readParameters_agrees hnext []
    rw [hparameters] at hsettings
    obtain ⟨hnone, hlast⟩ := hsettings.of_none
    exact ⟨last, hlast, by rw [readOffers_eq, hsome, Option.bind_some, hnone, Option.bind_none]⟩
  | case5 position offers name next hname parameters hparameters =>
    obtain ⟨hlast, hread⟩ := readOffers_offer h hname hparameters offers
    exact ⟨input.length, hlast, by rw [hread, List.drop_length, if_pos rfl]⟩
  | case6 position offers name next hname parameters last hparameters hmore hskip =>
    obtain ⟨hlast, -⟩ := readOffers_offer h hname hparameters offers
    obtain ⟨start, hstart, -⟩ := skipWhitespace_spec (show last + 1 ≤ input.length by omega)
    cases hskip.symm.trans hstart
  | case7 position offers name next hname parameters last hparameters hmore hskip =>
    obtain ⟨hlast, hread⟩ := readOffers_offer h hname hparameters offers
    obtain ⟨start, hstart, -, -, hdrop⟩ :=
      skipWhitespace_spec (show last + 1 ≤ input.length by omega)
    cases hskip.symm.trans hstart
    rw [List.drop_length] at hdrop
    refine ⟨input.length, le_rfl, ?_⟩
    rw [hread, if_neg (mt List.drop_eq_nil_iff.mp (by omega)), if_pos hdrop.symm]
  | case8 position offers name next hname parameters last hparameters hmore start hskip hrest ih =>
    obtain ⟨hlast, hread⟩ := readOffers_offer h hname hparameters offers
    obtain ⟨start', hstart, -, hle, hdrop⟩ :=
      skipWhitespace_spec (show last + 1 ≤ input.length by omega)
    cases hskip.symm.trans hstart
    obtain ⟨end', hend, hoffers⟩ := ih hle
    refine ⟨end', hend, ?_⟩
    rw [hoffers, hread, if_neg (mt List.drop_eq_nil_iff.mp (by omega)), ← hdrop,
      if_neg (mt List.drop_eq_nil_iff.mp (by omega))]

/-- `parse` computes what the parser on lists computes, and ends inside its input. -/
theorem parse_spec (input : Bytes) : ∃ position ≤ input.length,
    parse input = some (ExtensionsParser.parse input, position) := by
  obtain ⟨position, hskip, -, hle, hdrop⟩ := skipWhitespace_spec (Nat.zero_le input.length)
  rw [List.drop_zero] at hdrop
  unfold parse
  simp only [hskip]
  split
  · next hend =>
    rw [hend, List.drop_length] at hdrop
    exact ⟨position, hle, by rw [ExtensionsParser.parse, ← hdrop]⟩
  · next hmore =>
    obtain ⟨last, hlast, hoffers⟩ := readOffers_spec hle []
    refine ⟨last, hlast, ?_⟩
    rw [hoffers, ExtensionsParser.parse, ← hdrop]
    obtain ⟨c, hc⟩ := get_lt (show position < input.length by omega)
    rw [drop_of_get hc]

/-- The parser accepts exactly the texts of the grammar and lists their offers in
order. It stops inside its input, which it never reads beyond the end. -/
theorem parse_exact (input : Bytes) : ∃ offers position, parse input = some (offers, position) ∧
    position ≤ input.length ∧ ∀ list, offers = some list ↔ ExtensionsText input list := by
  obtain ⟨position, hle, hparse⟩ := parse_spec input
  exact ⟨_, position, hparse, hle, fun _ => parse_eq_some_iff⟩

end Eiows.ExtensionsParser.Positions
