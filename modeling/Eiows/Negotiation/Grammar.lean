import Eiows.Negotiation.Extensions
import Mathlib.Data.List.TakeWhile

/-!
# The grammar of extension offers

The texts that `ExtensionsParser` accepts, as a grammar: offers are separated by
commas, parameters by semicolons, and a value is a token or a quoted string. Blanks
may stand around every separator. The classes of characters and the lower case are
given by the numbers of the characters. The parser accepts exactly these texts.
-/

namespace Eiows.ExtensionsParser

/-- The space and the tab. -/
def BlankCharacter (c : UInt8) : Prop := c.toNat = 32 ∨ c.toNat = 9

/-- The visible characters that separate tokens: `"(),/:;<=>?@[\]` and both braces. -/
def separators : List ℕ := [34, 40, 41, 44, 47, 58, 59, 60, 61, 62, 63, 64, 91, 92, 93, 123, 125]

/-- The other visible characters. -/
def TokenCharacter (c : UInt8) : Prop := 33 ≤ c.toNat ∧ c.toNat ≤ 126 ∧ c.toNat ∉ separators

/-- What may stand between quotes: no quote, no backslash, and no control character
but the tab. -/
def QuotedCharacter (c : UInt8) : Prop := c.toNat = 9 ∨ 32 ≤ c.toNat ∧ c.toNat ∉ [34, 92, 127]

/-- What may stand behind a backslash: no control character. -/
def EscapedCharacter (c : UInt8) : Prop := 32 ≤ c.toNat ∧ c.toNat ≠ 127

/-- The lower case of a character: 32 behind a capital letter, and the character
itself elsewhere. -/
def LowerCase (c d : UInt8) : Prop :=
  d.toNat = if 65 ≤ c.toNat ∧ c.toNat ≤ 90 then c.toNat + 32 else c.toNat

/-- A text and its lower case. -/
def Lowered (text lower : Bytes) : Prop := List.Forall₂ LowerCase text lower

/-- Optional whitespace. -/
def IsBlank (ws : Bytes) : Prop := ∀ c ∈ ws, BlankCharacter c

/-- A token. -/
structure IsToken (token : Bytes) : Prop where
  nonempty : token ≠ []
  characters : ∀ c ∈ token, TokenCharacter c

/-- The inside of a quoted string, and what it stands for. -/
inductive QuotedText : Bytes → Bytes → Prop
  | nil : QuotedText [] []
  | text {c : UInt8} {w v : Bytes} (allowed : QuotedCharacter c) (rest : QuotedText w v) :
      QuotedText (c :: w) (c :: v)
  | escaped {c : UInt8} {w v : Bytes} (printable : EscapedCharacter c) (rest : QuotedText w v) :
      QuotedText (0x5c :: c :: w) (c :: v)

/-- The text of a value. -/
inductive ValueText : Bytes → Bytes → Prop
  | token {t v : Bytes} (plain : IsToken t) (lowered : Lowered t v) : ValueText t v
  | quoted {w v : Bytes} (inside : QuotedText w v) : ValueText (0x22 :: (w ++ [0x22])) v

/-- The text of a parameter. -/
inductive ParameterText : Bytes → ExtensionParameter → Prop
  | flag {token name : Bytes} (plain : IsToken token) (lowered : Lowered token name) :
      ParameterText token { name, value := [], hasValue := false }
  | valued {token name ws ws' text value : Bytes} (plain : IsToken token)
      (lowered : Lowered token name) (before : IsBlank ws) (after : IsBlank ws')
      (assigned : ValueText text value) :
      ParameterText (token ++ (ws ++ 0x3d :: (ws' ++ text))) { name, value, hasValue := true }

/-- The text of the parameters behind the name of an offer. -/
inductive ParametersText : Bytes → List ExtensionParameter → Prop
  | nil : ParametersText [] []
  | cons {ws ws' text rest : Bytes} {parameter : ExtensionParameter}
      {parameters : List ExtensionParameter} (before : IsBlank ws) (after : IsBlank ws')
      (first : ParameterText text parameter) (others : ParametersText rest parameters) :
      ParametersText (ws ++ 0x3b :: (ws' ++ (text ++ rest))) (parameter :: parameters)

/-- The text of one or more offers. -/
inductive OffersText : Bytes → List ExtensionOffer → Prop
  | one {token name text ws : Bytes} {parameters : List ExtensionParameter}
      (plain : IsToken token) (lowered : Lowered token name)
      (settings : ParametersText text parameters) (blank : IsBlank ws) :
      OffersText (token ++ (text ++ ws)) [{ name, parameters }]
  | cons {token name text ws ws' rest : Bytes} {parameters : List ExtensionParameter}
      {offers : List ExtensionOffer} (plain : IsToken token) (lowered : Lowered token name)
      (settings : ParametersText text parameters) (before : IsBlank ws) (after : IsBlank ws')
      (others : OffersText rest offers) :
      OffersText (token ++ (text ++ (ws ++ 0x2c :: (ws' ++ rest)))) ({ name, parameters } :: offers)

/-- The text of a header: nothing, or offers. -/
inductive ExtensionsText : Bytes → List ExtensionOffer → Prop
  | empty {ws : Bytes} (blank : IsBlank ws) : ExtensionsText ws []
  | offers {ws text : Bytes} {offers : List ExtensionOffer} (blank : IsBlank ws)
      (listed : OffersText text offers) : ExtensionsText (ws ++ text) offers

section Characters

variable {c : UInt8}

/-- The classes of the parser are those of the grammar, and so is its lower case. -/
theorem characters (c : UInt8) :
    (isWhitespace c = true ↔ BlankCharacter c) ∧ (isTokenCharacter c = true ↔ TokenCharacter c) ∧
      (isQuotedText c = true ↔ QuotedCharacter c) ∧ (isControl c = false ↔ EscapedCharacter c) ∧
      LowerCase c (lowerCharacter c) := by
  revert c
  unfold BlankCharacter TokenCharacter QuotedCharacter EscapedCharacter LowerCase
  decide +kernel

theorem isWhitespace_iff : isWhitespace c = true ↔ BlankCharacter c := (characters c).1

theorem isTokenCharacter_iff : isTokenCharacter c = true ↔ TokenCharacter c := (characters c).2.1

theorem isQuotedText_iff : isQuotedText c = true ↔ QuotedCharacter c := (characters c).2.2.1

theorem isControl_iff : isControl c = false ↔ EscapedCharacter c := (characters c).2.2.2.1

theorem lowerCase_iff {d : UInt8} : LowerCase c d ↔ lowerCharacter c = d := by
  rw [LowerCase, ← (characters c).2.2.2.2, eq_comm]
  exact UInt8.toNat_inj

/-- `lowerAscii` computes the lower case. -/
theorem lowered_iff {text lower : Bytes} : Lowered text lower ↔ lowerAscii text = lower := by
  have hcharacters : LowerCase = fun c d => lowerCharacter c = d := by
    funext c d
    exact propext lowerCase_iff
  rw [Lowered, hcharacters, lowerAscii, ← List.forall₂_eq_eq_eq, List.forall₂_map_left_iff]

theorem lowered_lowerAscii (text : Bytes) : Lowered text (lowerAscii text) := lowered_iff.mpr rfl

theorem IsBlank.whitespace {ws : Bytes} (h : IsBlank ws) : ∀ c ∈ ws, isWhitespace c = true :=
  fun c hc => isWhitespace_iff.mpr (h c hc)

theorem IsToken.run {token : Bytes} (h : IsToken token) : ∀ c ∈ token, isTokenCharacter c = true :=
  fun c hc => isTokenCharacter_iff.mpr (h.characters c hc)

theorem isToken_iff {token : Bytes} :
    IsToken token ↔ token ≠ [] ∧ ∀ c ∈ token, isTokenCharacter c = true :=
  ⟨fun h => ⟨h.nonempty, h.run⟩, fun h => ⟨h.1, fun c hc => isTokenCharacter_iff.mp (h.2 c hc)⟩⟩

end Characters

/-- A text does not go on with a character of the class `p`. -/
def Stops (p : UInt8 → Bool) (rest : Bytes) : Prop := ∀ c, rest.head? = some c → p c = false

section Reading

variable {p : UInt8 → Bool} {run rest : Bytes}

theorem dropWhile_run (hrun : ∀ c ∈ run, p c = true) (hrest : Stops p rest) :
    (run ++ rest).dropWhile p = rest := by
  rw [List.dropWhile_append_of_pos hrun]
  cases rest with
  | nil => rfl
  | cons c rest => rw [List.dropWhile_cons_of_neg (by simp [hrest c rfl])]

theorem takeWhile_run (hrun : ∀ c ∈ run, p c = true) (hrest : Stops p rest) :
    (run ++ rest).takeWhile p = run := by
  rw [List.takeWhile_append_of_pos hrun]
  cases rest with
  | nil => rw [List.takeWhile_nil, List.append_nil]
  | cons c rest =>
    rw [List.takeWhile_cons_of_neg (by simp [hrest c rfl]), List.append_nil]

theorem skipWhitespace_blank {ws : Bytes} (hws : IsBlank ws) (hrest : Stops isWhitespace rest) :
    skipWhitespace (ws ++ rest) = rest :=
  dropWhile_run hws.whitespace hrest

theorem stops_skipWhitespace (input : Bytes) : Stops isWhitespace (skipWhitespace input) := by
  intro c hc
  unfold skipWhitespace at hc
  have hne : input.dropWhile isWhitespace ≠ [] := by
    intro hnil
    rw [hnil] at hc
    cases hc
  have hhead := List.head_dropWhile_not isWhitespace hne
  rw [List.head?_eq_some_head hne] at hc
  cases hc
  simpa using hhead

theorem skipWhitespace_split (input : Bytes) :
    ∃ ws, IsBlank ws ∧ input = ws ++ skipWhitespace input := by
  refine ⟨input.takeWhile isWhitespace, ?_, List.takeWhile_append_dropWhile.symm⟩
  intro c hc
  exact isWhitespace_iff.mp (List.mem_takeWhile_imp hc)

theorem readToken_append {token name : Bytes} (htoken : IsToken token) (hname : Lowered token name)
    (hrest : Stops isTokenCharacter rest) :
    readToken (token ++ rest) = some (name, rest) := by
  rw [readToken, takeWhile_run htoken.run hrest, dropWhile_run htoken.run hrest,
    if_neg htoken.nonempty, lowered_iff.mp hname]

theorem readToken_split {input token : Bytes} (h : readToken input = some (token, rest)) :
    ∃ raw, IsToken raw ∧ Lowered raw token ∧ input = raw ++ rest ∧
      Stops isTokenCharacter rest := by
  unfold readToken at h
  split_ifs at h with hempty
  cases h
  refine ⟨_, isToken_iff.mpr ⟨hempty, fun c hc => List.mem_takeWhile_imp hc⟩,
    lowered_lowerAscii _, List.takeWhile_append_dropWhile.symm, ?_⟩
  intro c hc
  have hne : input.dropWhile isTokenCharacter ≠ [] := by
    intro hnil
    rw [hnil] at hc
    cases hc
  have hhead := List.head_dropWhile_not isTokenCharacter hne
  rw [List.head?_eq_some_head hne] at hc
  cases hc
  simpa using hhead

theorem isQuotedText_ne {c : UInt8} (h : isQuotedText c = true) : c ≠ 0x22 ∧ c ≠ 0x5c := by
  revert c
  decide +kernel

theorem readQuotedText_append {w v : Bytes} (h : QuotedText w v) (rest value : Bytes) :
    readQuotedText (w ++ 0x22 :: rest) value = some (value ++ v, rest) := by
  induction h generalizing value with
  | nil => rw [List.nil_append, readQuotedText.eq_def, List.append_nil]; rfl
  | @text c w v hallowed _ ih =>
    have hquoted := isQuotedText_iff.mpr hallowed
    obtain ⟨hquote, hbackslash⟩ := isQuotedText_ne hquoted
    rw [List.cons_append, readQuotedText.eq_def]
    simp only [if_neg hquote, if_neg hbackslash, if_pos hquoted]
    rw [ih, List.append_assoc]
    rfl
  | @escaped c w v hprintable _ ih =>
    rw [List.cons_append, List.cons_append, readQuotedText.eq_def]
    simp only [isControl_iff.mpr hprintable, Bool.false_eq_true, if_false, if_true]
    rw [if_neg (by decide), ih, List.append_assoc]
    rfl

theorem readQuotedText_split {input value text : Bytes}
    (h : readQuotedText input value = some (text, rest)) :
    ∃ w v, QuotedText w v ∧ text = value ++ v ∧ input = w ++ 0x22 :: rest := by
  fun_induction readQuotedText input value with
  | case1 => cases h
  | case2 =>
    cases h
    exact ⟨[], [], .nil, (List.append_nil _).symm, rfl⟩
  | case3 => cases h
  | case4 => cases h
  | case5 value escaped rest' hcontrol _ ih =>
    obtain ⟨w, v, hquoted, rfl, rfl⟩ := ih h
    refine ⟨_, _, .escaped (isControl_iff.mp (Bool.eq_false_of_not_eq_true hcontrol)) hquoted, ?_, rfl⟩
    rw [List.append_assoc]
    rfl
  | case6 value character rest' _ _ hallowed ih =>
    obtain ⟨w, v, hquoted, rfl, rfl⟩ := ih h
    refine ⟨_, _, .text (isQuotedText_iff.mp hallowed) hquoted, ?_, rfl⟩
    rw [List.append_assoc]
    rfl
  | case7 => cases h

theorem tokenCharacter_ne {c : UInt8} (h : isTokenCharacter c = true) :
    c ≠ 0x22 ∧ isWhitespace c = false := by
  revert c
  decide +kernel

theorem IsToken.head {token : Bytes} (h : IsToken token) (rest : Bytes) :
    ∃ c, (token ++ rest).head? = some c ∧ isTokenCharacter c = true := by
  obtain ⟨c, token', rfl⟩ := List.exists_cons_of_ne_nil h.nonempty
  exact ⟨c, rfl, h.run c (List.mem_cons_self ..)⟩

theorem IsToken.stops {token : Bytes} (h : IsToken token) (rest : Bytes) :
    Stops isWhitespace (token ++ rest) := by
  intro c hc
  obtain ⟨c', hc', hcharacter⟩ := h.head rest
  rw [hc'] at hc
  cases hc
  exact (tokenCharacter_ne hcharacter).2

theorem readValue_append {text value : Bytes} (h : ValueText text value)
    (hrest : Stops isTokenCharacter rest) : readValue (text ++ rest) = some (value, rest) := by
  cases h with
  | token htoken hlowered =>
    obtain ⟨c, hc, hcharacter⟩ := htoken.head rest
    rw [readValue, hc, if_neg, readToken_append htoken hlowered hrest]
    rintro ⟨⟩
    exact (tokenCharacter_ne hcharacter).1 rfl
  | @quoted w v htext =>
    rw [List.cons_append, List.append_assoc, readValue, List.head?_cons, if_pos rfl,
      readQuotedString, if_pos rfl]
    exact readQuotedText_append htext rest []

theorem readValue_split {input value : Bytes} (h : readValue input = some (value, rest)) :
    ∃ text, ValueText text value ∧ input = text ++ rest := by
  unfold readValue at h
  split_ifs at h with hquote
  · cases input with
    | nil => cases hquote
    | cons c input =>
      obtain rfl : c = 0x22 := by simpa using hquote
      rw [readQuotedString, if_pos rfl] at h
      obtain ⟨w, v, hquoted, rfl, rfl⟩ := readQuotedText_split h
      exact ⟨_, .quoted hquoted, by simp⟩
  · obtain ⟨raw, htoken, hlowered, rfl, -⟩ := readToken_split h
    exact ⟨raw, .token htoken hlowered, rfl⟩

theorem ValueText.stops {text value : Bytes} (h : ValueText text value) (rest : Bytes) :
    Stops isWhitespace (text ++ rest) := by
  cases h with
  | token htoken _ => exact htoken.stops rest
  | quoted _ =>
    intro c hc
    cases hc
    decide

/-- A text goes on with a comma or a semicolon, or ends, after blanks. -/
def Delimited (rest : Bytes) : Prop :=
  ∃ ws tail, IsBlank ws ∧ rest = ws ++ tail ∧ ∀ c, tail.head? = some c → c = 0x2c ∨ c = 0x3b

theorem Delimited.skipWhitespace_head (h : Delimited rest) :
    ∀ c, (skipWhitespace rest).head? = some c → c = 0x2c ∨ c = 0x3b := by
  obtain ⟨ws, tail, hws, rfl, htail⟩ := h
  rw [skipWhitespace_blank hws]
  · exact htail
  · intro c hc
    rcases htail c hc with rfl | rfl <;> decide

theorem whitespace_not_token {c : UInt8} (h : isWhitespace c = true) :
    isTokenCharacter c = false := by
  revert c
  decide +kernel

theorem Delimited.stops (h : Delimited rest) : Stops isTokenCharacter rest := by
  obtain ⟨ws, tail, hws, rfl, htail⟩ := h
  intro c hc
  cases ws with
  | nil => rcases htail c hc with rfl | rfl <;> decide
  | cons _ ws =>
    cases hc
    exact whitespace_not_token (hws.whitespace c (List.mem_cons_self ..))

theorem ParametersText.delimited {text : Bytes} {parameters : List ExtensionParameter}
    (h : ParametersText text parameters) (hrest : Delimited rest) : Delimited (text ++ rest) := by
  cases h with
  | nil => exact hrest
  | @cons ws ws' text rest' _ _ before _ _ _ =>
    refine ⟨ws, 0x3b :: (ws' ++ (text ++ rest')) ++ rest, before, List.append_assoc .., ?_⟩
    rintro c ⟨⟩
    exact .inr rfl

theorem readParameter_append {ws text : Bytes} {parameter : ExtensionParameter} (hws : IsBlank ws)
    (h : ParameterText text parameter) (hrest : Delimited rest) :
    ∃ rest', readParameter (ws ++ (text ++ rest)) = some (parameter, rest') ∧
      skipWhitespace rest' = skipWhitespace rest := by
  cases h with
  | flag htoken hlowered =>
    have hname := readToken_append htoken hlowered hrest.stops
    have hdelimiter := hrest.skipWhitespace_head
    rw [readParameter, skipWhitespace_blank hws (htoken.stops rest), hname]
    cases hskip : skipWhitespace rest with
    | nil => exact ⟨[], by simp only [hskip], rfl⟩
    | cons c tail =>
      rw [hskip] at hdelimiter
      have hc : c ≠ 0x3d := by rcases hdelimiter c rfl with rfl | rfl <;> decide
      refine ⟨c :: tail, ?_, ?_⟩
      · simp only [hskip]
        rw [if_pos hc]
      · exact List.dropWhile_cons_of_neg (by simp [stops_skipWhitespace rest c (by rw [hskip]; rfl)])
  | @valued token name ws₁ ws₂ text value htoken hlowered hbefore hafter hvalue =>
    refine ⟨rest, ?_, rfl⟩
    have hequals : Stops isTokenCharacter (ws₁ ++ 0x3d :: (ws₂ ++ (text ++ rest))) := by
      intro c hc
      cases ws₁ with
      | nil =>
        cases hc
        decide
      | cons _ ws₁ =>
        cases hc
        exact whitespace_not_token (hbefore.whitespace c (List.mem_cons_self ..))
    have hname := readToken_append htoken hlowered hequals
    have hblank : Stops isWhitespace (0x3d :: (ws₂ ++ (text ++ rest))) := by
      rintro c ⟨⟩
      decide
    simp only [List.append_assoc, List.cons_append]
    rw [readParameter, skipWhitespace_blank hws (htoken.stops _), hname]
    simp only [skipWhitespace_blank hbefore hblank]
    rw [if_neg (by decide), skipWhitespace_blank hafter (hvalue.stops rest),
      readValue_append hvalue hrest.stops]

theorem readParameter_split {input : Bytes} {parameter : ExtensionParameter}
    (h : readParameter input = some (parameter, rest)) :
    ∃ ws text ws', IsBlank ws ∧ ParameterText text parameter ∧ IsBlank ws' ∧
      input = ws ++ (text ++ (ws' ++ rest)) := by
  obtain ⟨ws, hws, hinput⟩ := skipWhitespace_split input
  unfold readParameter at h
  split at h
  · cases h
  · rename_i name rest₁ htoken
    obtain ⟨raw, hraw, hlowered, hname, -⟩ := readToken_split htoken
    obtain ⟨ws₁, hws₁, hrest₁⟩ := skipWhitespace_split rest₁
    rw [hname] at hinput
    split at h
    · rename_i hend
      cases h
      rw [hend] at hrest₁
      exact ⟨ws, raw, ws₁, hws, .flag hraw hlowered, hws₁, by rw [← hrest₁, hinput]⟩
    · rename_i c rest₂ hskip
      rw [hskip] at hrest₁
      split_ifs at h with hc
      · cases h
        exact ⟨ws, raw, ws₁, hws, .flag hraw hlowered, hws₁, by rw [← hrest₁, hinput]⟩
      · split at h
        · cases h
        · rename_i value rest₃ hvalue
          cases h
          obtain ⟨ws₂, hws₂, hrest₂⟩ := skipWhitespace_split rest₂
          obtain ⟨text, htext, hsplit⟩ := readValue_split hvalue
          obtain rfl : c = 0x3d := not_not.mp hc
          refine ⟨ws, _, [], hws, .valued hraw hlowered hws₁ hws₂ htext, by simp [IsBlank], ?_⟩
          rw [hsplit] at hrest₂
          rw [hinput, hrest₁, hrest₂]
          simp only [List.append_assoc, List.cons_append, List.nil_append]

end Reading

section Lists

variable {input rest : Bytes} {parameters : List ExtensionParameter}

theorem readParameters_end (hskip : skipWhitespace input = []) :
    readParameters input parameters = some (parameters, []) := by
  rw [readParameters]
  split
  · rfl
  · rename_i hcons
    cases hskip.symm.trans hcons

theorem readParameters_comma (hskip : skipWhitespace input = 0x2c :: rest) :
    readParameters input parameters = some (parameters, 0x2c :: rest) := by
  rw [readParameters]
  split
  · rename_i hnil
    cases hskip.symm.trans hnil
  · rename_i hcons
    cases hskip.symm.trans hcons
    rw [if_pos rfl]

theorem readParameters_semicolon {parameter : ExtensionParameter} {rest' : Bytes}
    (hskip : skipWhitespace input = 0x3b :: rest)
    (hparameter : readParameter rest = some (parameter, rest')) :
    readParameters input parameters = readParameters rest' (parameters ++ [parameter]) := by
  rw [readParameters]
  split
  · rename_i hnil
    cases hskip.symm.trans hnil
  · rename_i hcons
    cases hskip.symm.trans hcons
    rw [if_neg (by decide), if_neg (by simp)]
    split
    · rename_i hnone
      cases hnone.symm.trans hparameter
    · rename_i hsome
      cases hsome.symm.trans hparameter
      rfl

/-- The parameters of an offer are read back, up to a comma or the end. -/
theorem readParameters_append {text : Bytes} {new : List ExtensionParameter}
    (h : ParametersText text new)
    (parameters : List ExtensionParameter)
    (hrest : skipWhitespace rest = [] ∨ ∃ tail, skipWhitespace rest = 0x2c :: tail)
    (hinput : skipWhitespace input = skipWhitespace (text ++ rest)) :
    readParameters input parameters = some (parameters ++ new, skipWhitespace rest) := by
  induction h generalizing input parameters with
  | nil =>
    rw [List.append_nil]
    rw [List.nil_append] at hinput
    rcases hrest with hend | ⟨tail, hcomma⟩
    · rw [hend]
      exact readParameters_end (hinput.trans hend)
    · rw [hcomma]
      exact readParameters_comma (hinput.trans hcomma)
  | @cons ws ws' text rest' parameter new before after first others ih =>
    have hdelimited : Delimited (rest' ++ rest) := by
      apply others.delimited
      obtain ⟨ws₁, hws₁, hsplit⟩ := skipWhitespace_split rest
      refine ⟨ws₁, _, hws₁, hsplit, ?_⟩
      intro c hc
      rcases hrest with hend | ⟨tail, hcomma⟩
      · rw [hend] at hc
        cases hc
      · rw [hcomma] at hc
        cases hc
        exact .inl rfl
    obtain ⟨input', hread, hskip⟩ := readParameter_append after first hdelimited
    have hsemicolon : skipWhitespace input = 0x3b :: (ws' ++ (text ++ (rest' ++ rest))) := by
      rw [hinput]
      simp only [List.append_assoc, List.cons_append]
      apply skipWhitespace_blank before
      rintro c ⟨⟩
      decide
    rw [readParameters_semicolon hsemicolon hread, ih _ hskip, List.append_assoc]
    rfl

theorem ParametersText.append {text text' : Bytes} {parameters' : List ExtensionParameter}
    (h : ParametersText text parameters) (h' : ParametersText text' parameters') :
    ParametersText (text ++ text') (parameters ++ parameters') := by
  induction h with
  | nil => exact h'
  | cons before after first _ ih =>
    simp only [List.append_assoc, List.cons_append]
    exact .cons before after first ih

/-- Blanks before the parameters of an offer belong to the first of them. -/
theorem ParametersText.blank {text ws ws' : Bytes} (h : ParametersText text parameters)
    (hws : IsBlank ws) (hws' : IsBlank ws') :
    ∃ text' ws₁, ParametersText text' parameters ∧ IsBlank ws₁ ∧
      ws ++ (text ++ ws') = text' ++ ws₁ := by
  cases h with
  | nil =>
    refine ⟨[], ws ++ ws', .nil, ?_, rfl⟩
    intro c hc
    rcases List.mem_append.mp hc with hc | hc
    · exact hws c hc
    · exact hws' c hc
  | @cons ws₁ ws₂ text rest _ _ before after first others =>
    have hblank : IsBlank (ws ++ ws₁) := by
      intro c hc
      rcases List.mem_append.mp hc with hc | hc
      · exact hws c hc
      · exact before c hc
    refine ⟨_, ws', .cons hblank after first others, hws', ?_⟩
    simp only [List.append_assoc, List.cons_append]

theorem readParameters_split {parameters' : List ExtensionParameter}
    (h : readParameters input parameters = some (parameters', rest)) :
    ∃ text ws new, ParametersText text new ∧ IsBlank ws ∧ parameters' = parameters ++ new ∧
      input = text ++ (ws ++ rest) ∧ ∀ c, rest.head? = some c → c = 0x2c := by
  fun_induction readParameters input parameters with
  | case1 input parameters hskip =>
    cases h
    obtain ⟨ws, hws, hinput⟩ := skipWhitespace_split input
    rw [hskip] at hinput
    exact ⟨[], ws, [], .nil, hws, (List.append_nil _).symm, hinput, by simp⟩
  | case2 input parameters rest' hskip =>
    cases h
    obtain ⟨ws, hws, hinput⟩ := skipWhitespace_split input
    rw [hskip] at hinput
    refine ⟨[], ws, [], .nil, hws, (List.append_nil _).symm, hinput, ?_⟩
    rintro c ⟨⟩
    rfl
  | case3 => cases h
  | case4 => cases h
  | case5 input parameters character rest₁ hskip _ hsemicolon parameter rest₂ hparameter ih =>
    obtain ⟨text, ws, new, htext, hws, rfl, hrest₂, hcomma⟩ := ih h
    obtain ⟨ws₁, hws₁, hinput⟩ := skipWhitespace_split input
    obtain ⟨ws₂, text', ws₃, hws₂, htext', hws₃, hrest₁⟩ := readParameter_split hparameter
    obtain ⟨text₁, ws₄, htext₁, hws₄, hblank⟩ := htext.blank hws₃ hws
    obtain rfl : character = 0x3b := not_not.mp hsemicolon
    refine ⟨_, ws₄, _, .cons hws₁ hws₂ htext' htext₁, hws₄, ?_, ?_, hcomma⟩
    · rw [List.append_assoc]
      rfl
    · have hblank' := congrArg (fun w => w ++ rest) hblank
      simp only [List.append_assoc] at hblank'
      rw [hinput, hskip, hrest₁, hrest₂]
      simp only [List.append_assoc, List.cons_append, hblank']

theorem OffersText.stops {text : Bytes} {offers : List ExtensionOffer} (h : OffersText text offers) :
    Stops isWhitespace text ∧ text ≠ [] := by
  cases h with
  | one plain _ _ _ => exact ⟨plain.stops _, by simp [plain.nonempty]⟩
  | cons plain _ _ _ _ _ => exact ⟨plain.stops _, by simp [plain.nonempty]⟩

theorem blank_delimited {ws tail : Bytes} (hws : IsBlank ws)
    (htail : ∀ c, tail.head? = some c → c = 0x2c) : Delimited (ws ++ tail) :=
  ⟨ws, tail, hws, rfl, fun c hc => .inl (htail c hc)⟩

theorem skipWhitespace_of_isBlank {ws : Bytes} (hws : IsBlank ws) : skipWhitespace ws = [] := by
  have h : skipWhitespace (ws ++ []) = [] := dropWhile_run hws.whitespace (by simp [Stops])
  rwa [List.append_nil] at h

/-- The offers of a text are read back. -/
theorem readOffers_append {text : Bytes} {offers new : List ExtensionOffer}
    (h : OffersText text new) : readOffers text offers = some (offers ++ new) := by
  induction h generalizing offers with
  | @one token name text ws parameters plain lowered settings blank =>
    have hend := skipWhitespace_of_isBlank blank
    have hdelimited : Delimited (text ++ ws) :=
      settings.delimited ⟨ws, [], blank, (List.append_nil ws).symm, by simp⟩
    have hname := readToken_append plain lowered hdelimited.stops
    have hparameters := readParameters_append settings [] (.inl hend) rfl
    rw [hend, List.nil_append] at hparameters
    rw [readOffers]
    split
    · rename_i hnone
      cases hnone.symm.trans hname
    · rename_i hsome
      cases hsome.symm.trans hname
      split
      · rename_i hnone
        cases hnone.symm.trans hparameters
      · rename_i hsome'
        cases hsome'.symm.trans hparameters
        rfl
      · rename_i hsome'
        cases hsome'.symm.trans hparameters
  | @cons token name text ws ws' rest parameters new plain lowered settings before after others ih =>
    obtain ⟨hstops, hnonempty⟩ := others.stops
    have hcomma : skipWhitespace (ws ++ 0x2c :: (ws' ++ rest)) = 0x2c :: (ws' ++ rest) := by
      apply skipWhitespace_blank before
      rintro c ⟨⟩
      decide
    have hdelimited : Delimited (text ++ (ws ++ 0x2c :: (ws' ++ rest))) := by
      apply settings.delimited
      apply blank_delimited before
      rintro c ⟨⟩
      rfl
    have hname := readToken_append plain lowered hdelimited.stops
    have hparameters := readParameters_append settings [] (.inr ⟨_, hcomma⟩) rfl
    rw [hcomma, List.nil_append] at hparameters
    have hskip := skipWhitespace_blank after hstops
    rw [readOffers]
    split
    · rename_i hnone
      cases hnone.symm.trans hname
    · rename_i hsome
      cases hsome.symm.trans hname
      split
      · rename_i hnone
        cases hnone.symm.trans hparameters
      · rename_i hsome'
        cases hsome'.symm.trans hparameters
      · rename_i hsome'
        cases hsome'.symm.trans hparameters
        split
        · rename_i hnil
          exact absurd (hskip.symm.trans hnil) hnonempty
        · rw [hskip, ih, List.append_assoc]
          rfl

theorem readOffers_split {offers offers' : List ExtensionOffer}
    (h : readOffers input offers = some offers') :
    ∃ new, offers' = offers ++ new ∧ OffersText input new := by
  fun_induction readOffers input offers with
  | case1 => cases h
  | case2 => cases h
  | case3 input offers name rest hname parameters hparameters =>
    cases h
    obtain ⟨raw, hraw, hlowered, rfl, -⟩ := readToken_split hname
    obtain ⟨text, ws, new, htext, hws, rfl, rfl, -⟩ := readParameters_split hparameters
    refine ⟨_, rfl, ?_⟩
    rw [List.append_nil]
    exact .one hraw hlowered htext hws
  | case4 => cases h
  | case5 input offers name rest hname parameters separator rest' hparameters _ _ _ ih =>
    obtain ⟨new, rfl, hnew⟩ := ih h
    obtain ⟨raw, hraw, hlowered, rfl, -⟩ := readToken_split hname
    obtain ⟨text, ws, new', htext, hws, rfl, rfl, hcomma⟩ := readParameters_split hparameters
    obtain rfl : separator = 0x2c := hcomma separator rfl
    obtain ⟨ws', hws', hrest'⟩ := skipWhitespace_split rest'
    refine ⟨_, List.append_assoc .., ?_⟩
    rw [hrest']
    exact .cons hraw hlowered htext hws hws' hnew

end Lists

/-- The parser accepts exactly the texts of the grammar, with their offers. -/
theorem parse_eq_some_iff {input : Bytes} {offers : List ExtensionOffer} :
    parse input = some offers ↔ ExtensionsText input offers := by
  obtain ⟨ws, hws, hinput⟩ := skipWhitespace_split input
  constructor
  · intro h
    unfold parse at h
    split at h
    · rename_i hnil
      cases h
      rw [hnil, List.append_nil] at hinput
      rw [hinput]
      exact .empty hws
    · rename_i character rest hskip
      obtain ⟨new, rfl, hnew⟩ := readOffers_split h
      rw [hinput, hskip]
      exact .offers hws hnew
  · intro h
    cases h with
    | empty hblank => rw [parse, skipWhitespace_of_isBlank hblank]
    | @offers ws text _ hblank hlisted =>
      obtain ⟨hstops, hnonempty⟩ := hlisted.stops
      obtain ⟨c, rest, rfl⟩ := List.exists_cons_of_ne_nil hnonempty
      rw [parse, skipWhitespace_blank hblank hstops]
      exact readOffers_append hlisted

end Eiows.ExtensionsParser
