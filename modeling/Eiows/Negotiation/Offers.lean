import Eiows.Negotiation.Grammar

/-!
# The accepted offer and its answer

`readOffer` selects the first offer of `permessage-deflate` that keeps the rules for
its parameters. The answer of `generateOffer` is read with the grammar of the
offers, and compared with the offer it answers.
-/

namespace Eiows

/-- A number in decimal, without leading zeros. -/
def decimal (n : ℕ) : Bytes := ascii (toString n)

/-- The rules for one parameter of an offer of `permessage-deflate`. -/
inductive Allowed (wantedOptions : BitVec 32) (parameter : ExtensionParameter) : Prop
  | serverNoContextTakeover (name : parameter.name = ascii "server_no_context_takeover")
      (value : parameter.hasValue = false) (wanted : wants wantedOptions SERVER_NO_CONTEXT_TAKEOVER)
  | clientNoContextTakeover (name : parameter.name = ascii "client_no_context_takeover")
      (value : parameter.hasValue = false)
  | serverMaxWindowBits (name : parameter.name = ascii "server_max_window_bits")
      (value : parameter.hasValue = true)
      (bits : ∃ n, 9 ≤ n ∧ n ≤ 15 ∧ parameter.value = decimal n)
  | clientMaxWindowBits (name : parameter.name = ascii "client_max_window_bits")
      (bits : parameter.hasValue = true → ∃ n, 8 ≤ n ∧ n ≤ 15 ∧ parameter.value = decimal n)

/-- An offer that the server can honour. -/
structure Acceptable (wantedOptions : BitVec 32) (offer : ExtensionOffer) : Prop where
  name : offer.name = ascii "permessage-deflate"
  distinct : (offer.parameters.map ExtensionParameter.name).Nodup
  allowed : ∀ parameter ∈ offer.parameters, Allowed wantedOptions parameter

/-- An offer carries a parameter without a value. -/
def ExtensionOffer.HasFlag (offer : ExtensionOffer) (name : String) : Prop :=
  { name := ascii name } ∈ offer.parameters

/-- An offer assigns a number to a parameter. -/
def ExtensionOffer.Assigns (offer : ExtensionOffer) (name : String) (n : ℕ) : Prop :=
  { name := ascii name, value := decimal n, hasValue := true } ∈ offer.parameters

/-- The parameters of `permessage-deflate` have different names. -/
theorem parameter_names :
    (ascii "server_no_context_takeover" ≠ ascii "client_no_context_takeover" ∧
      ascii "server_no_context_takeover" ≠ ascii "server_max_window_bits" ∧
      ascii "server_no_context_takeover" ≠ ascii "client_max_window_bits") ∧
    (ascii "client_no_context_takeover" ≠ ascii "server_max_window_bits" ∧
      ascii "client_no_context_takeover" ≠ ascii "client_max_window_bits") ∧
    ascii "server_max_window_bits" ≠ ascii "client_max_window_bits" := by
  simp [ascii]

section WindowBits

theorem decimal_digit {c : UInt8} (h : 0x38 ≤ c ∧ c ≤ 0x39) :
    [c] = decimal (c.toNat - 0x30) ∧ 8 ≤ c.toNat - 0x30 ∧ c.toNat - 0x30 ≤ 15 := by
  have hc : c = 0x38 ∨ c = 0x39 := by
    revert c
    decide +kernel
  rcases hc with rfl | rfl <;> exact ⟨rfl, by decide, by decide⟩

theorem decimal_teen {d : UInt8} (h : 0x30 ≤ d ∧ d ≤ 0x35) :
    [0x31, d] = decimal (10 + d.toNat - 0x30) ∧ 8 ≤ 10 + d.toNat - 0x30 ∧
      10 + d.toNat - 0x30 ≤ 15 := by
  have hd : d = 0x30 ∨ d = 0x31 ∨ d = 0x32 ∨ d = 0x33 ∨ d = 0x34 ∨ d = 0x35 := by
    revert d
    decide +kernel
  rcases hd with rfl | rfl | rfl | rfl | rfl | rfl <;> exact ⟨rfl, by decide, by decide⟩

variable {parameter : ExtensionParameter}

theorem windowBitsValue_spec (h : isWindowBits parameter true = true) :
    parameter.hasValue = true ∧ parameter.value = decimal (windowBitsValue parameter) ∧
      8 ≤ windowBitsValue parameter ∧ windowBitsValue parameter ≤ 15 := by
  obtain ⟨name, value, hasValue⟩ := parameter
  cases hasValue with
  | false => cases h
  | true =>
    refine ⟨rfl, ?_⟩
    simp only [windowBitsValue, h, Bool.not_true, Bool.or_self, Bool.false_eq_true, if_false]
    simp only [isWindowBits, Bool.not_true, Bool.false_eq_true, if_false] at h
    match value with
    | [] => cases h
    | [c] => exact decimal_digit (by simpa using h)
    | [c, d] =>
      simp only [Bool.and_eq_true, beq_iff_eq, decide_eq_true_eq] at h
      obtain ⟨⟨rfl, hlow⟩, hhigh⟩ := h
      exact decimal_teen ⟨hlow, hhigh⟩
    | _ :: _ :: _ :: _ => cases h

theorem isWindowBits_decimal {n : ℕ} (hlow : 8 ≤ n) (hhigh : n ≤ 15)
    (hvalue : parameter.hasValue = true) (hdecimal : parameter.value = decimal n)
    (required : Bool) :
    isWindowBits parameter required = true ∧ windowBitsValue parameter = n := by
  obtain ⟨name, value, hasValue⟩ := parameter
  obtain rfl : hasValue = true := hvalue
  obtain rfl : value = decimal n := hdecimal
  interval_cases n <;> cases required <;> exact ⟨rfl, rfl⟩

end WindowBits

section Checks

variable {wantedOptions : BitVec 32} {parameter : ExtensionParameter}
  {parameters rest : List ExtensionParameter} {seen : List Bytes} {out : WindowBits}

/-- What a parameter leaves in the out-parameters of `isCompatibleOffer`. -/
def limit (parameter : ExtensionParameter) (out : WindowBits) : WindowBits :=
  if parameter.name = ascii "server_max_window_bits" then ⟨windowBitsValue parameter, true⟩ else out

theorem checkParameters_allowed (hnew : parameter.name ∉ seen)
    (h : Allowed wantedOptions parameter) :
    checkParameters wantedOptions (parameter :: rest) seen out =
      checkParameters wantedOptions rest (parameter.name :: seen) (limit parameter out) := by
  obtain ⟨⟨hsc, hss, hsm⟩, ⟨hcs, hcm⟩, hmm⟩ := parameter_names
  rw [checkParameters, if_neg hnew, limit]
  cases h with
  | serverNoContextTakeover hname hvalue hwanted =>
    rw [hname, if_pos rfl, if_neg (by simp [hvalue, hwanted]), if_neg hss]
  | clientNoContextTakeover hname hvalue =>
    rw [hname, if_neg hsc.symm, if_pos rfl, if_neg (by simp [hvalue]), if_neg hcs]
  | serverMaxWindowBits hname hvalue hbits =>
    obtain ⟨n, hlow, hhigh, hdecimal⟩ := hbits
    have hn := (isWindowBits_decimal (by omega) hhigh hvalue hdecimal true).2
    rw [hname, if_neg hss.symm, if_neg hcs.symm, if_pos rfl, if_neg (by omega), if_pos rfl]
  | clientMaxWindowBits hname hbits =>
    have hvalid : isWindowBits parameter false = true := by
      cases hvalue : parameter.hasValue with
      | false => simp [isWindowBits, hvalue]
      | true =>
        obtain ⟨n, hlow, hhigh, hdecimal⟩ := hbits hvalue
        exact (isWindowBits_decimal hlow hhigh hvalue hdecimal false).1
    rw [hname, if_neg hsm.symm, if_neg hcm.symm, if_neg hmm.symm, if_pos rfl,
      if_neg (by simp [hvalid]), if_neg hmm.symm]

theorem checkParameters_refused (h : parameter.name ∈ seen ∨ ¬Allowed wantedOptions parameter) :
    checkParameters wantedOptions (parameter :: rest) seen out = (false, out) := by
  rw [checkParameters]
  by_cases hseen : parameter.name ∈ seen
  · rw [if_pos hseen]
  have hrefused := h.resolve_left hseen
  rw [if_neg hseen]
  split_ifs with hserver hvalue hclient hvalue hmax hbits hmax hbits
  · rfl
  · simp only [Bool.or_eq_true, not_or, Bool.not_eq_true, Bool.not_eq_true', Bool.not_eq_false]
      at hvalue
    exact absurd (.serverNoContextTakeover hserver hvalue.1 hvalue.2) hrefused
  · rfl
  · exact absurd (.clientNoContextTakeover hclient (by simpa using hvalue)) hrefused
  · rfl
  · have hvalid : isWindowBits parameter true = true := by
      by_contra hinvalid
      apply hbits
      rw [windowBitsValue, if_pos (by simp [hinvalid])]
      decide
    obtain ⟨hvalue, hdecimal, -, hhigh⟩ := windowBitsValue_spec hvalid
    exact absurd (.serverMaxWindowBits hmax hvalue ⟨_, by omega, hhigh, hdecimal⟩) hrefused
  · rfl
  · refine absurd (.clientMaxWindowBits hmax ?_) hrefused
    intro hvalue
    have hvalid : isWindowBits parameter true = true := by
      simpa [isWindowBits, hvalue] using hbits
    obtain ⟨-, hdecimal, hlow, hhigh⟩ := windowBitsValue_spec hvalid
    exact ⟨_, hlow, hhigh, hdecimal⟩
  · rfl

/-- The loop accepts the parameters that are allowed and have new names. -/
theorem checkParameters_accepts :
    (checkParameters wantedOptions parameters seen out).1 = true ↔
      (∀ parameter ∈ parameters, parameter.name ∉ seen) ∧
        (parameters.map ExtensionParameter.name).Nodup ∧
          ∀ parameter ∈ parameters, Allowed wantedOptions parameter := by
  induction parameters generalizing seen out with
  | nil => simp [checkParameters]
  | cons parameter rest ih =>
    by_cases h : parameter.name ∉ seen ∧ Allowed wantedOptions parameter
    · rw [checkParameters_allowed h.1 h.2, ih, List.map_cons, List.nodup_cons, List.mem_map]
      constructor
      · rintro ⟨hnew, hdistinct, hallowed⟩
        refine ⟨?_, ⟨?_, hdistinct⟩, ?_⟩
        · intro p hp
          rcases List.mem_cons.mp hp with rfl | hp
          · exact h.1
          · exact fun hmem => hnew p hp (List.mem_cons_of_mem _ hmem)
        · rintro ⟨p, hp, hname⟩
          exact hnew p hp (hname ▸ List.mem_cons_self ..)
        · intro p hp
          rcases List.mem_cons.mp hp with rfl | hp
          · exact h.2
          · exact hallowed p hp
      · rintro ⟨hnew, ⟨hfirst, hdistinct⟩, hallowed⟩
        refine ⟨?_, hdistinct, fun p hp => hallowed p (List.mem_cons_of_mem _ hp)⟩
        intro p hp hmem
        rcases List.mem_cons.mp hmem with hname | hmem
        · exact hfirst ⟨p, hp, hname⟩
        · exact hnew p (List.mem_cons_of_mem _ hp) hmem
    · rw [checkParameters_refused (by tauto)]
      constructor
      · intro hfalse
        cases hfalse
      · rintro ⟨hnew, -, hallowed⟩
        exact absurd ⟨hnew parameter (List.mem_cons_self ..),
          hallowed parameter (List.mem_cons_self ..)⟩ h

/-- The out-parameters of an accepted offer are those of its `server_max_window_bits`. -/
theorem checkParameters_limit
    (h : (checkParameters wantedOptions parameters seen out).1 = true) :
    ((∀ parameter ∈ parameters, parameter.name ≠ ascii "server_max_window_bits") →
      (checkParameters wantedOptions parameters seen out).2 = out) ∧
    ∀ parameter ∈ parameters, parameter.name = ascii "server_max_window_bits" →
      (checkParameters wantedOptions parameters seen out).2 = ⟨windowBitsValue parameter, true⟩ := by
  induction parameters generalizing seen out with
  | nil => exact ⟨fun _ => rfl, by simp⟩
  | cons first rest ih =>
    obtain ⟨hnew, hdistinct, hallowed⟩ := checkParameters_accepts.mp h
    have hstep : checkParameters wantedOptions (first :: rest) seen out =
        checkParameters wantedOptions rest (first.name :: seen) (limit first out) :=
      checkParameters_allowed (hnew first (List.mem_cons_self ..))
        (hallowed first (List.mem_cons_self ..))
    rw [hstep] at h ⊢
    obtain ⟨hnone, hsome⟩ := ih h
    constructor
    · intro hother
      rw [hnone fun p hp => hother p (List.mem_cons_of_mem _ hp), limit,
        if_neg (hother first (List.mem_cons_self ..))]
    · intro p hp hname
      rcases List.mem_cons.mp hp with rfl | hp
      · rw [hnone, limit, if_pos hname]
        intro q hq hq'
        rw [List.map_cons, List.nodup_cons, List.mem_map] at hdistinct
        exact hdistinct.1 ⟨q, hq, hq'.trans hname.symm⟩
      · exact hsome p hp hname

theorem isCompatibleOffer_iff {offer : ExtensionOffer}
    (hname : offer.name = ascii "permessage-deflate") :
    (isCompatibleOffer offer wantedOptions).1 = true ↔ Acceptable wantedOptions offer := by
  rw [isCompatibleOffer, checkParameters_accepts]
  constructor
  · rintro ⟨-, hdistinct, hallowed⟩
    exact ⟨hname, hdistinct, hallowed⟩
  · rintro ⟨-, hdistinct, hallowed⟩
    exact ⟨by simp, hdistinct, hallowed⟩

end Checks

section Options

variable (options : BitVec 32)

theorem hasOption_toNat {option : ℕ} (h : option < 2 ^ 32) :
    hasOption options.toNat option = wants options option := by
  have hoption : (BitVec.ofNat 32 option).toNat = option := by
    rw [BitVec.toNat_ofNat, Nat.mod_eq_of_lt h]
  rw [hasOption, wants, Bool.eq_iff_iff, bne_iff_ne, bne_iff_ne, not_iff_not,
    ← BitVec.toNat_inj, BitVec.toNat_and, hoption]
  rfl

theorem wants_clearOptions {mask option : ℕ}
    (h : ~~~BitVec.ofNat 32 mask &&& BitVec.ofNat 32 option = 0) :
    wants (clearOptions options mask) option = false := by
  rw [wants, clearOptions, BitVec.and_assoc, h]
  simp

theorem wants_clearOptions_of_not {mask option : ℕ} (h : wants options option = false) :
    wants (clearOptions options mask) option = false := by
  rw [wants, bne_eq_false_iff_eq] at h ⊢
  rw [clearOptions, BitVec.and_assoc, BitVec.and_comm (~~~_), ← BitVec.and_assoc, h]
  simp

end Options

namespace ExtensionsNegotiator

section Selection

variable {options : BitVec 32} {before after : List ExtensionOffer} {offer : ExtensionOffer}

theorem firstCompatible_eq_none {offers : List ExtensionOffer} :
    firstCompatible options offers = none ↔ ∀ offer ∈ offers, ¬Acceptable options offer := by
  induction offers with
  | nil => simp [firstCompatible]
  | cons candidate rest ih =>
    rw [firstCompatible, List.forall_mem_cons]
    by_cases h : Acceptable options candidate
    · have hcompatible := (isCompatibleOffer_iff h.name).mpr h
      rw [if_pos ⟨h.name, hcompatible⟩]
      simp [h]
    · rw [if_neg, ih]
      · simp [h]
      · rintro ⟨hname, hcompatible⟩
        exact h ((isCompatibleOffer_iff hname).mp hcompatible)

/-- The first acceptable offer decides. -/
theorem firstCompatible_first (hbefore : ∀ offer ∈ before, ¬Acceptable options offer)
    (h : Acceptable options offer) :
    firstCompatible options (before ++ offer :: after) =
      some (isCompatibleOffer offer options).2 := by
  induction before with
  | nil =>
    have hcompatible := (isCompatibleOffer_iff h.name).mpr h
    rw [List.nil_append, firstCompatible, if_pos ⟨h.name, hcompatible⟩]
  | cons candidate rest ih =>
    rw [List.forall_mem_cons] at hbefore
    rw [List.cons_append, firstCompatible, if_neg, ih hbefore.2]
    rintro ⟨hname, hcompatible⟩
    exact hbefore.1 ((isCompatibleOffer_iff hname).mp hcompatible)

theorem exists_first {offers : List ExtensionOffer} (h : ∃ offer ∈ offers, Acceptable options offer) :
    ∃ before offer after, offers = before ++ offer :: after ∧
      (∀ offer ∈ before, ¬Acceptable options offer) ∧ Acceptable options offer := by
  classical
  have hfind : (offers.find? fun offer => decide (Acceptable options offer)).isSome := by
    simpa using h
  obtain ⟨offer, hoffer⟩ := Option.isSome_iff_exists.mp hfind
  obtain ⟨hacceptable, before, after, rfl, hbefore⟩ := List.find?_eq_some_iff_append.mp hoffer
  exact ⟨before, offer, after, rfl, by simpa using hbefore, by simpa using hacceptable⟩

end Selection

/-- The offer that `generateOffer` writes. -/
def answer (n : ExtensionsNegotiator) : ExtensionOffer where
  name := ascii "permessage-deflate"
  parameters :=
    (if wants n.options CLIENT_NO_CONTEXT_TAKEOVER then
      [{ name := ascii "client_no_context_takeover" }] else []) ++
    (if wants n.options SERVER_NO_CONTEXT_TAKEOVER then
      [{ name := ascii "server_no_context_takeover" }] else []) ++
    (if n.serverMaxWindowBitsNegotiated then
      [{ name := ascii "server_max_window_bits", value := decimal n.serverMaxWindowBits,
         hasValue := true }] else [])

section Answer

open ExtensionsParser

/-- A token that `readToken` reads as it is written. -/
def IsPlain (token : Bytes) : Prop := IsToken token ∧ Lowered token token

theorem isPlain_of_all {token : Bytes} (hnonempty : token.isEmpty = false)
    (h : (token.all fun c => isTokenCharacter c && lowerCharacter c == c) = true) :
    IsPlain token := by
  rw [List.all_eq_true] at h
  refine ⟨isToken_iff.mpr ⟨?_, ?_⟩, lowered_iff.mpr ?_⟩
  · rintro rfl
    cases hnonempty
  · intro c hc
    exact (Bool.and_eq_true_iff.mp (h c hc)).1
  · refine (List.map_congr_left fun c hc => ?_).trans (List.map_id token)
    exact eq_of_beq (Bool.and_eq_true_iff.mp (h c hc)).2

theorem decimal_plain {n : ℕ} (hlow : 8 ≤ n) (hhigh : n ≤ 15) : IsPlain (decimal n) := by
  interval_cases n <;> exact isPlain_of_all rfl rfl

variable {name client server bits : Bytes} {n : ℕ}

theorem isBlank_nil : IsBlank [] := by simp [IsBlank]

theorem isBlank_space : IsBlank [0x20] := by simp [IsBlank, BlankCharacter]

theorem flag_text (h : IsPlain name) : ParametersText (0x3b :: 0x20 :: name) [{ name }] := by
  have hparameter := ParameterText.flag h.1 h.2
  have htext := ParametersText.cons isBlank_nil isBlank_space hparameter .nil
  rw [List.append_nil] at htext
  exact htext

theorem assignment_text (h : IsPlain name) (hlow : 8 ≤ n) (hhigh : n ≤ 15) :
    ParametersText (0x3b :: 0x20 :: (name ++ 0x3d :: decimal n))
      [{ name, value := decimal n, hasValue := true }] := by
  obtain ⟨htoken, hlower⟩ := decimal_plain hlow hhigh
  have hvalue := ValueText.token htoken hlower
  have hparameter := ParameterText.valued h.1 h.2 isBlank_nil isBlank_nil hvalue
  have htext := ParametersText.cons isBlank_nil isBlank_space hparameter .nil
  rw [List.append_nil] at htext
  exact htext

/-- A response with two flags and a number, each of which may be left out. -/
theorem response_text {p q r : Prop} [Decidable p] [Decidable q] [Decidable r]
    (hname : IsPlain name) (hclient : IsPlain client) (hserver : IsPlain server)
    (hbits : IsPlain bits) (hn : r → 8 ≤ n ∧ n ≤ 15) :
    ExtensionsText
      (name ++ ((if p then 0x3b :: 0x20 :: client else []) ++
        ((if q then 0x3b :: 0x20 :: server else []) ++
          (if r then 0x3b :: 0x20 :: (bits ++ 0x3d :: decimal n) else []))))
      [⟨name, (if p then [{ name := client }] else []) ++ (if q then [{ name := server }] else []) ++
        (if r then [{ name := bits, value := decimal n, hasValue := true }] else [])⟩] := by
  have hparameters : ParametersText
      ((if p then 0x3b :: 0x20 :: client else []) ++ (if q then 0x3b :: 0x20 :: server else []) ++
        (if r then 0x3b :: 0x20 :: (bits ++ 0x3d :: decimal n) else []))
      ((if p then [{ name := client }] else []) ++ (if q then [{ name := server }] else []) ++
        (if r then [{ name := bits, value := decimal n, hasValue := true }] else [])) := by
    refine .append (.append ?_ ?_) ?_
    · split_ifs
      · exact flag_text hclient
      · exact .nil
    · split_ifs
      · exact flag_text hserver
      · exact .nil
    · split_ifs with hr
      · exact assignment_text hbits (hn hr).1 (hn hr).2
      · exact .nil
  have htext := ExtensionsText.offers isBlank_nil (.one hname.1 hname.2 hparameters isBlank_nil)
  rw [List.nil_append, List.append_nil, List.append_assoc] at htext
  exact htext

/-- The response is the text of the answer. -/
theorem generateOffer_text {n : ExtensionsNegotiator} (hwants : wants n.options PERMESSAGE_DEFLATE)
    (hbits : n.serverMaxWindowBitsNegotiated = true →
      8 ≤ n.serverMaxWindowBits ∧ n.serverMaxWindowBits ≤ 15) :
    ExtensionsText n.generateOffer [n.answer] := by
  have hclient : ascii "; client_no_context_takeover" =
      0x3b :: 0x20 :: ascii "client_no_context_takeover" := by simp [ascii]
  have hserver : ascii "; server_no_context_takeover" =
      0x3b :: 0x20 :: ascii "server_no_context_takeover" := by simp [ascii]
  have hassign : ∀ value, ascii "; server_max_window_bits=" ++ value =
      0x3b :: 0x20 :: (ascii "server_max_window_bits" ++ 0x3d :: value) := by simp [ascii]
  rw [generateOffer, if_pos hwants, hclient, hserver, hassign, List.append_assoc,
    List.append_assoc, answer]
  exact response_text (isPlain_of_all rfl rfl) (isPlain_of_all rfl rfl) (isPlain_of_all rfl rfl)
    (isPlain_of_all rfl rfl) hbits

end Answer

end ExtensionsNegotiator

/-- An answer that RFC 7692 allows for an offer, and what it promises beyond that. -/
structure Answers (wantedOptions : BitVec 32) (offer answer : ExtensionOffer) : Prop where
  name : answer.name = ascii "permessage-deflate"
  distinct : (answer.parameters.map ExtensionParameter.name).Nodup
  offered : offer.HasFlag "server_no_context_takeover" → answer.HasFlag "server_no_context_takeover"
  serverNoContextTakeover : answer.HasFlag "server_no_context_takeover" ↔
    wants wantedOptions SERVER_NO_CONTEXT_TAKEOVER
  clientNoContextTakeover : answer.HasFlag "client_no_context_takeover" ↔
    wants wantedOptions CLIENT_NO_CONTEXT_TAKEOVER
  serverMaxWindowBits : ∀ n, answer.Assigns "server_max_window_bits" n ↔
    offer.Assigns "server_max_window_bits" n
  /-- In particular `client_max_window_bits` is never answered. -/
  known : ∀ parameter ∈ answer.parameters,
    parameter = { name := ascii "server_no_context_takeover" } ∨
    parameter = { name := ascii "client_no_context_takeover" } ∨
    ∃ n, 9 ≤ n ∧ n ≤ 15 ∧ parameter =
      { name := ascii "server_max_window_bits", value := decimal n, hasValue := true }

/-- A session that compresses as an answer says. -/
structure Compresses {Z : Zlib} (answer : ExtensionOffer) (s : Session Z) : Prop where
  enabled : s.compressionStatus = .enabled
  serverNoContextTakeover : hasOption s.extensionOptions SERVER_NO_CONTEXT_TAKEOVER = true ↔
    answer.HasFlag "server_no_context_takeover"
  clientNoContextTakeover : hasOption s.extensionOptions CLIENT_NO_CONTEXT_TAKEOVER = true ↔
    answer.HasFlag "client_no_context_takeover"
  windowBits : (∃ n, answer.Assigns "server_max_window_bits" n ∧ s.serverMaxWindowBits = n) ∨
    (∀ n, ¬answer.Assigns "server_max_window_bits" n) ∧ s.serverMaxWindowBits = 15

namespace Acceptable

variable {wantedOptions : BitVec 32} {offer : ExtensionOffer}

theorem accepted (h : Acceptable wantedOptions offer) :
    (checkParameters wantedOptions offer.parameters [] {}).1 = true :=
  (isCompatibleOffer_iff h.name).mpr h

/-- An offer that assigns `server_max_window_bits` sets the limit. -/
theorem assigned (h : Acceptable wantedOptions offer) {m : ℕ}
    (hassigns : offer.Assigns "server_max_window_bits" m) :
    ∃ n, 9 ≤ n ∧ n ≤ 15 ∧ decimal m = decimal n ∧
      (isCompatibleOffer offer wantedOptions).2 = ⟨n, true⟩ := by
  have hbits := (checkParameters_limit h.accepted).2 _ hassigns rfl
  cases h.allowed _ hassigns with
  | serverNoContextTakeover hname => exact absurd hname.symm parameter_names.1.2.1
  | clientNoContextTakeover hname => exact absurd hname.symm parameter_names.2.1.1
  | clientMaxWindowBits hname => exact absurd hname parameter_names.2.2
  | serverMaxWindowBits _ hvalue hdecimal =>
    obtain ⟨n, hlow, hhigh, hdecimal⟩ := hdecimal
    refine ⟨n, hlow, hhigh, hdecimal, ?_⟩
    rw [isCompatibleOffer, hbits, (isWindowBits_decimal (by omega) hhigh hvalue hdecimal true).2]

theorem unassigned (h : Acceptable wantedOptions offer)
    (hassigns : ∀ m, ¬offer.Assigns "server_max_window_bits" m) :
    (isCompatibleOffer offer wantedOptions).2 = {} := by
  apply (checkParameters_limit h.accepted).1
  intro parameter hparameter hname
  cases h.allowed _ hparameter with
  | serverNoContextTakeover hname' => exact absurd (hname'.symm.trans hname) parameter_names.1.2.1
  | clientNoContextTakeover hname' => exact absurd (hname'.symm.trans hname) parameter_names.2.1.1
  | clientMaxWindowBits hname' => exact absurd (hname.symm.trans hname') parameter_names.2.2
  | serverMaxWindowBits _ hvalue hdecimal =>
    obtain ⟨n, -, -, hdecimal⟩ := hdecimal
    apply hassigns n
    obtain ⟨name, value, hasValue⟩ := parameter
    obtain rfl : name = _ := hname
    obtain rfl : value = _ := hdecimal
    obtain rfl : hasValue = true := hvalue
    exact hparameter

end Acceptable

namespace ExtensionsNegotiator

variable {n : ExtensionsNegotiator}

theorem mem_answer {parameter : ExtensionParameter} : parameter ∈ n.answer.parameters ↔
    (wants n.options CLIENT_NO_CONTEXT_TAKEOVER = true ∧
      parameter = { name := ascii "client_no_context_takeover" }) ∨
    (wants n.options SERVER_NO_CONTEXT_TAKEOVER = true ∧
      parameter = { name := ascii "server_no_context_takeover" }) ∨
    (n.serverMaxWindowBitsNegotiated = true ∧ parameter =
      { name := ascii "server_max_window_bits", value := decimal n.serverMaxWindowBits,
        hasValue := true }) := by
  simp only [answer, List.mem_append, List.mem_ite_nil_right, List.mem_singleton, or_assoc]

theorem answer_serverNoContextTakeover : n.answer.HasFlag "server_no_context_takeover" ↔
    wants n.options SERVER_NO_CONTEXT_TAKEOVER = true := by
  rw [ExtensionOffer.HasFlag, mem_answer]
  constructor
  · rintro (⟨-, h⟩ | ⟨h, -⟩ | ⟨-, h⟩)
    · exact absurd (congrArg ExtensionParameter.name h) parameter_names.1.1
    · exact h
    · cases congrArg ExtensionParameter.hasValue h
  · intro h
    exact .inr (.inl ⟨h, rfl⟩)

theorem answer_clientNoContextTakeover : n.answer.HasFlag "client_no_context_takeover" ↔
    wants n.options CLIENT_NO_CONTEXT_TAKEOVER = true := by
  rw [ExtensionOffer.HasFlag, mem_answer]
  constructor
  · rintro (⟨h, -⟩ | ⟨-, h⟩ | ⟨-, h⟩)
    · exact h
    · exact absurd (congrArg ExtensionParameter.name h).symm parameter_names.1.1
    · cases congrArg ExtensionParameter.hasValue h
  · intro h
    exact .inl ⟨h, rfl⟩

theorem answer_assigns {m : ℕ} : n.answer.Assigns "server_max_window_bits" m ↔
    n.serverMaxWindowBitsNegotiated = true ∧ decimal m = decimal n.serverMaxWindowBits := by
  rw [ExtensionOffer.Assigns, mem_answer]
  constructor
  · rintro (⟨-, h⟩ | ⟨-, h⟩ | ⟨hnegotiated, h⟩)
    · cases congrArg ExtensionParameter.hasValue h
    · cases congrArg ExtensionParameter.hasValue h
    · exact ⟨hnegotiated, congrArg ExtensionParameter.value h⟩
  · rintro ⟨hnegotiated, hdecimal⟩
    rw [hdecimal]
    exact .inr (.inr ⟨hnegotiated, rfl⟩)

theorem answer_distinct : (n.answer.parameters.map ExtensionParameter.name).Nodup := by
  have hnames : n.answer.parameters.map ExtensionParameter.name =
      (if wants n.options CLIENT_NO_CONTEXT_TAKEOVER then
        [ascii "client_no_context_takeover"] else []) ++
      (if wants n.options SERVER_NO_CONTEXT_TAKEOVER then
        [ascii "server_no_context_takeover"] else []) ++
      (if n.serverMaxWindowBitsNegotiated then [ascii "server_max_window_bits"] else []) := by
    rw [answer, List.map_append, List.map_append]
    split_ifs <;> rfl
  obtain ⟨⟨hsc, hss, -⟩, ⟨hcs, -⟩, -⟩ := parameter_names
  rw [hnames]
  split_ifs <;> simp [hsc.symm, hss, hcs]

variable {wantedOptions : BitVec 32} {offer : ExtensionOffer}

theorem answer_answers (h : Acceptable wantedOptions offer) (hoptions : n.options = wantedOptions)
    (hbits : n.toWindowBits = (isCompatibleOffer offer wantedOptions).2) :
    Answers wantedOptions offer n.answer where
  name := rfl
  distinct := answer_distinct
  offered := by
    intro hflag
    rw [answer_serverNoContextTakeover, hoptions]
    cases h.allowed _ hflag with
    | serverNoContextTakeover _ _ hwanted => exact hwanted
    | clientNoContextTakeover hname => exact absurd hname parameter_names.1.1
    | serverMaxWindowBits hname => exact absurd hname parameter_names.1.2.1
    | clientMaxWindowBits hname => exact absurd hname parameter_names.1.2.2
  serverNoContextTakeover := by rw [answer_serverNoContextTakeover, hoptions]
  clientNoContextTakeover := by rw [answer_clientNoContextTakeover, hoptions]
  serverMaxWindowBits := by
    intro m
    rw [answer_assigns, hbits]
    constructor
    · rintro ⟨hnegotiated, hdecimal⟩
      by_contra hm
      have hnone : ∀ k, ¬offer.Assigns "server_max_window_bits" k := by
        intro k hk
        obtain ⟨j, -, -, hj, hlimit⟩ := h.assigned hk
        rw [hlimit] at hdecimal
        apply hm
        rw [ExtensionOffer.Assigns, hdecimal, ← hj]
        exact hk
      rw [h.unassigned hnone] at hnegotiated
      cases hnegotiated
    · intro hm
      obtain ⟨k, -, -, hk, hlimit⟩ := h.assigned hm
      rw [hlimit]
      exact ⟨rfl, hk⟩
  known := by
    intro parameter hparameter
    rcases mem_answer.mp hparameter with ⟨-, rfl⟩ | ⟨-, rfl⟩ | ⟨hnegotiated, rfl⟩
    · exact .inr (.inl rfl)
    · exact .inl rfl
    · rw [hbits] at hnegotiated ⊢
      by_cases hassigns : ∃ m, offer.Assigns "server_max_window_bits" m
      · obtain ⟨m, hm⟩ := hassigns
        obtain ⟨k, hlow, hhigh, -, hlimit⟩ := h.assigned hm
        rw [hlimit]
        exact .inr (.inr ⟨k, hlow, hhigh, rfl⟩)
      · rw [h.unassigned (not_exists.mp hassigns)] at hnegotiated
        cases hnegotiated

/-- The session that is created for an accepted offer compresses as the answer says. -/
theorem create_compresses {Z : Zlib} (hwants : wants n.options PERMESSAGE_DEFLATE = true)
    (h : Acceptable n.options offer)
    (hbits : n.toWindowBits = (isCompatibleOffer offer n.options).2) (maxPayload : ℕ)
    (context : Option (CompressionContext Z)) :
    Compresses n.answer
      (Session.create n.options.toNat n.serverMaxWindowBits maxPayload context) := by
  have hdeflate : hasOption n.options.toNat PERMESSAGE_DEFLATE = true := by
    rw [hasOption_toNat n.options (by decide), hwants]
  rw [Session.create, if_pos hdeflate]
  constructor
  · rfl
  · rw [answer_serverNoContextTakeover, hasOption_toNat n.options (by decide)]
  · rw [answer_clientNoContextTakeover, hasOption_toNat n.options (by decide)]
  · by_cases hassigns : ∃ m, offer.Assigns "server_max_window_bits" m
    · left
      obtain ⟨m, hm⟩ := hassigns
      obtain ⟨k, -, -, -, hlimit⟩ := h.assigned hm
      refine ⟨k, answer_assigns.mpr ?_, ?_⟩
      · rw [hbits, hlimit]
        exact ⟨rfl, rfl⟩
      · rw [hbits, hlimit]
    · right
      rw [h.unassigned (not_exists.mp hassigns)] at hbits
      constructor
      · intro m hm
        have hnegotiated := (answer_assigns.mp hm).1
        rw [hbits] at hnegotiated
        cases hnegotiated
      · rw [hbits]

/-- `readOffer` on an offer that it accepts. -/
theorem readOffer_accepts {text : Bytes} {before after : List ExtensionOffer}
    (hwanted : wants wantedOptions PERMESSAGE_DEFLATE = true)
    (htext : ExtensionsParser.ExtensionsText text (before ++ offer :: after))
    (hbefore : ∀ offer ∈ before, ¬Acceptable wantedOptions offer)
    (h : Acceptable wantedOptions offer) :
    (create wantedOptions).readOffer text =
      ⟨(isCompatibleOffer offer wantedOptions).2, wantedOptions⟩ := by
  have hparse := ExtensionsParser.parse_eq_some_iff.mpr htext
  have hfirst := @firstCompatible_first wantedOptions before after offer hbefore h
  rw [readOffer, create]
  simp [hwanted, hparse, hfirst]

/-- `readOffer` without an offer that it accepts. -/
theorem readOffer_refuses {text : Bytes}
    (h : wants wantedOptions PERMESSAGE_DEFLATE = true → ∀ offers,
      ExtensionsParser.ExtensionsText text offers →
        ∀ offer ∈ offers, ¬Acceptable wantedOptions offer) :
    ∀ option ∈ [PERMESSAGE_DEFLATE, SERVER_NO_CONTEXT_TAKEOVER, CLIENT_NO_CONTEXT_TAKEOVER,
      SLIDING_DEFLATE_WINDOW], wants ((create wantedOptions).readOffer text).options option =
        false := by
  have hclears : ∀ option ∈ [SERVER_NO_CONTEXT_TAKEOVER, CLIENT_NO_CONTEXT_TAKEOVER,
      SLIDING_DEFLATE_WINDOW], ∀ options : BitVec 32,
        wants (clearOptions options compressionOptions) option = false := by
    have hmasks : ∀ option ∈ [SERVER_NO_CONTEXT_TAKEOVER, CLIENT_NO_CONTEXT_TAKEOVER,
        SLIDING_DEFLATE_WINDOW],
        ~~~BitVec.ofNat 32 compressionOptions &&& BitVec.ofNat 32 option = 0 := by decide
    intro option hoption options
    exact wants_clearOptions options (hmasks option hoption)
  have hkeeps := fun options : BitVec 32 =>
    @wants_clearOptions_of_not options compressionOptions PERMESSAGE_DEFLATE
  rw [List.forall_mem_cons, readOffer, create]
  by_cases hwanted : wants wantedOptions PERMESSAGE_DEFLATE = true
  · have hnone : (ExtensionsParser.parse text).bind (firstCompatible wantedOptions) = none := by
      cases hparse : ExtensionsParser.parse text with
      | none => rfl
      | some offers =>
        exact firstCompatible_eq_none.mpr
          (h hwanted offers (ExtensionsParser.parse_eq_some_iff.mp hparse))
    simp only [hwanted, hnone, Bool.not_true, Bool.false_eq_true, if_false]
    refine ⟨hkeeps _ (wants_clearOptions _ (by decide)), ?_⟩
    intro option hoption
    exact hclears option hoption _
  · simp only [hwanted, Bool.not_false, if_true]
    refine ⟨hkeeps _ (by simpa using hwanted), ?_⟩
    intro option hoption
    exact hclears option hoption _

end ExtensionsNegotiator

open ExtensionsNegotiator ExtensionsParser

/-- The negotiation of `permessage-deflate` is sound and complete: the first acceptable
offer of a header decides, the response answers it, and the session that is created
compresses as the response says; without such an offer nothing is negotiated. -/
theorem readOffer_negotiates {Z : Zlib} (wantedOptions : BitVec 32) (header : Bytes)
    (maxPayload : ℕ) (context : Option (CompressionContext Z)) :
    let n := (create wantedOptions).readOffer header
    let created := createSession wantedOptions maxPayload header context
    (wants n.options PERMESSAGE_DEFLATE = true ↔
      wants wantedOptions PERMESSAGE_DEFLATE = true ∧
        ∃ offers, ExtensionsText header offers ∧ ∃ offer ∈ offers, Acceptable wantedOptions offer) ∧
    (wants n.options PERMESSAGE_DEFLATE = true →
      ∃ before offer after answer, ExtensionsText header (before ++ offer :: after) ∧
        (∀ rejected ∈ before, ¬Acceptable wantedOptions rejected) ∧
        Acceptable wantedOptions offer ∧ n.options = wantedOptions ∧
        created.2 = n.generateOffer ∧ ExtensionsText n.generateOffer [answer] ∧
        Answers wantedOptions offer answer ∧ Compresses answer created.1.session) ∧
    (wants n.options PERMESSAGE_DEFLATE = false →
      (∀ option ∈ [PERMESSAGE_DEFLATE, SERVER_NO_CONTEXT_TAKEOVER, CLIENT_NO_CONTEXT_TAKEOVER,
        SLIDING_DEFLATE_WINDOW], wants n.options option = false) ∧
      n.generateOffer = [] ∧ created.2 = [] ∧
      created.1.session.compressionStatus = .disabled) := by
  intro n created
  have hcreated : created.2 = n.generateOffer := rfl
  by_cases h : wants wantedOptions PERMESSAGE_DEFLATE = true ∧
      ∃ offers, ExtensionsText header offers ∧ ∃ offer ∈ offers, Acceptable wantedOptions offer
  · obtain ⟨hwanted, offers, htext, hoffer⟩ := id h
    obtain ⟨before, offer, after, rfl, hbefore, hacceptable⟩ := exists_first hoffer
    have hn : n = ⟨(isCompatibleOffer offer wantedOptions).2, wantedOptions⟩ :=
      readOffer_accepts hwanted htext hbefore hacceptable
    have hoptions : n.options = wantedOptions := by rw [hn]
    have hbits : n.toWindowBits = (isCompatibleOffer offer wantedOptions).2 := by rw [hn]
    have hwants : wants n.options PERMESSAGE_DEFLATE = true := by rw [hoptions, hwanted]
    have hanswers := answer_answers hacceptable hoptions hbits
    refine ⟨⟨fun _ => h, fun _ => hwants⟩, fun _ => ?_, fun hrefused => ?_⟩
    · refine ⟨before, offer, after, n.answer, htext, hbefore, hacceptable, hoptions, hcreated, ?_,
        hanswers, ?_⟩
      · apply generateOffer_text hwants
        intro hnegotiated
        obtain ⟨m, hm⟩ : ∃ m, offer.Assigns "server_max_window_bits" m :=
          ⟨_, (hanswers.serverMaxWindowBits _).mp (answer_assigns.mpr ⟨hnegotiated, rfl⟩)⟩
        obtain ⟨k, hlow, hhigh, -, hlimit⟩ := hacceptable.assigned hm
        rw [hbits, hlimit]
        exact ⟨le_trans (by decide) hlow, hhigh⟩
      · exact create_compresses hwants (hoptions ▸ hacceptable) (hoptions ▸ hbits) maxPayload context
    · rw [hwants] at hrefused
      cases hrefused
  · have hcleared : ∀ option ∈ [PERMESSAGE_DEFLATE, SERVER_NO_CONTEXT_TAKEOVER,
        CLIENT_NO_CONTEXT_TAKEOVER, SLIDING_DEFLATE_WINDOW], wants n.options option = false := by
      apply readOffer_refuses
      intro hwanted offers htext offer hmem hacceptable
      exact h ⟨hwanted, offers, htext, offer, hmem, hacceptable⟩
    have hrefused := hcleared PERMESSAGE_DEFLATE (by simp)
    have hempty : n.generateOffer = [] := by
      rw [generateOffer, if_neg (by simp [hrefused])]
    refine ⟨⟨fun hwants => ?_, fun hfound => absurd hfound h⟩, fun hwants => ?_, fun _ => ?_⟩
    · rw [hrefused] at hwants
      cases hwants
    · rw [hrefused] at hwants
      cases hwants
    · refine ⟨hcleared, hempty, hcreated.trans hempty, ?_⟩
      have hdisabled : ¬hasOption n.options.toNat PERMESSAGE_DEFLATE = true := by
        rw [hasOption_toNat n.options (by decide), hrefused]
        decide
      change (Session.create n.options.toNat n.serverMaxWindowBits maxPayload
        context).compressionStatus = .disabled
      rw [Session.create, if_neg hdisabled]

end Eiows
