import Mathlib.Algebra.Order.Group.Nat
import Mathlib.Data.List.Basic
import Mathlib.Data.List.TakeWhile

/-!
# Base64

Three bytes are four digits of six bits. A last group of one or two bytes is filled up
with padding, and the decoder ignores the bits behind its last byte.
-/

namespace Base64

/-- The padding `=`. -/
def padding : UInt8 := 0x3d

/-- The character of a digit. -/
def character (n : ℕ) : UInt8 :=
  UInt8.ofNat (if n < 26 then n + 65 else if n < 52 then n + 71 else if n < 62 then n - 4
    else if n = 62 then 43 else 47)

/-- The digit of a character of the alphabet. -/
def digit (c : UInt8) : Option ℕ :=
  if 65 ≤ c.toNat ∧ c.toNat ≤ 90 then some (c.toNat - 65)
  else if 97 ≤ c.toNat ∧ c.toNat ≤ 122 then some (c.toNat - 71)
  else if 48 ≤ c.toNat ∧ c.toNat ≤ 57 then some (c.toNat + 4)
  else if c.toNat = 43 then some 62
  else if c.toNat = 47 then some 63
  else none

/-- The digits of bytes. -/
def digits : List UInt8 → List ℕ
  | a :: b :: c :: rest =>
    a.toNat / 4 :: (a.toNat % 4 * 16 + b.toNat / 16) :: (b.toNat % 16 * 4 + c.toNat / 64) ::
      c.toNat % 64 :: digits rest
  | [a, b] => [a.toNat / 4, a.toNat % 4 * 16 + b.toNat / 16, b.toNat % 16 * 4]
  | [a] => [a.toNat / 4, a.toNat % 4 * 16]
  | [] => []

/-- The bytes of digits. -/
def bytes : List ℕ → List UInt8
  | p :: q :: r :: s :: rest =>
    UInt8.ofNat (p * 4 + q / 16) :: UInt8.ofNat (q % 16 * 16 + r / 4) ::
      UInt8.ofNat (r % 4 * 64 + s) :: bytes rest
  | [p, q, r] => [UInt8.ofNat (p * 4 + q / 16), UInt8.ofNat (q % 16 * 16 + r / 4)]
  | [p, q] => [UInt8.ofNat (p * 4 + q / 16)]
  | _ => []

/-- Encode bytes. -/
def encode (data : List UInt8) : List UInt8 :=
  (digits data).map character ++ List.replicate (2 * data.length % 3) padding

/-- How much padding a text ends with. -/
def paddingLength (text : List UInt8) : ℕ := (text.reverse.takeWhile (· == padding)).length

/-- Decode a text. -/
def decode (text : List UInt8) : Option (List UInt8) :=
  if paddingLength text ≤ 2 ∧ text.length % 4 = 0 then
    ((text.take (text.length - paddingLength text)).mapM digit).map bytes
  else none

theorem digit_character {n : ℕ} (h : n < 64) : digit (character n) = some n := by
  have hall : ∀ m : Fin 64, digit (character m) = some m.val := by decide
  exact hall ⟨n, h⟩

theorem digit_padding : digit padding = none := by decide

theorem digits_lt (data : List UInt8) : ∀ n ∈ digits data, n < 64 := by
  induction data using digits.induct with
  | case1 a b c rest ih =>
    have ha := a.toNat_lt
    have hb := b.toNat_lt
    have hc := c.toNat_lt
    rw [digits]
    simp only [List.forall_mem_cons]
    exact ⟨by omega, by omega, by omega, by omega, ih⟩
  | case2 a b =>
    have ha := a.toNat_lt
    have hb := b.toNat_lt
    rw [digits]
    simp only [List.forall_mem_cons]
    exact ⟨by omega, by omega, by omega, nofun⟩
  | case3 a =>
    have ha := a.toNat_lt
    rw [digits]
    simp only [List.forall_mem_cons]
    exact ⟨by omega, by omega, nofun⟩
  | case4 => exact nofun

theorem digits_length (data : List UInt8) : (digits data).length = (4 * data.length + 2) / 3 := by
  induction data using digits.induct with
  | case1 a b c rest ih =>
    simp only [digits, List.length_cons, ih]
    omega
  | case2 a b => simp [digits]
  | case3 a => simp [digits]
  | case4 => rfl

theorem bytes_length (ds : List ℕ) : (bytes ds).length = 3 * ds.length / 4 := by
  induction ds using bytes.induct with
  | case1 p q r s rest ih =>
    simp only [bytes, List.length_cons, ih]
    omega
  | case2 p q r => simp [bytes]
  | case3 p q => simp [bytes]
  | case4 ds hfour hthree htwo =>
    match ds with
    | [] => rfl
    | [p] => simp [bytes]
    | [p, q] => exact absurd rfl (htwo p q)
    | [p, q, r] => exact absurd rfl (hthree p q r)
    | p :: q :: r :: s :: rest => exact absurd rfl (hfour p q r s rest)

/-- The bytes of the digits of bytes are these bytes. -/
theorem bytes_digits (data : List UInt8) : bytes (digits data) = data := by
  have hbyte : ∀ {n : ℕ} {c : UInt8}, n = c.toNat → UInt8.ofNat n = c := by
    rintro n c rfl
    exact UInt8.ofNat_toNat
  induction data using digits.induct with
  | case1 a b c rest ih =>
    have hb := b.toNat_lt
    have hc := c.toNat_lt
    rw [digits, bytes, ih, hbyte (by omega : _ = a.toNat), hbyte (by omega : _ = b.toNat),
      hbyte (by omega : _ = c.toNat)]
  | case2 a b =>
    have hb := b.toNat_lt
    rw [digits, bytes, hbyte (by omega : _ = a.toNat), hbyte (by omega : _ = b.toNat)]
  | case3 a => rw [digits, bytes, hbyte (by omega : _ = a.toNat)]
  | case4 => rfl

theorem mapM_digit_character {ds : List ℕ} (h : ∀ n ∈ ds, n < 64) :
    (ds.map character).mapM digit = some ds := by
  induction ds with
  | nil => rfl
  | cons n ds ih =>
    rw [List.forall_mem_cons] at h
    rw [List.map_cons, List.mapM_cons, digit_character h.1, ih h.2]
    rfl

theorem mapM_digit_spec {text : List UInt8} {ds : List ℕ} (h : text.mapM digit = some ds) :
    (∀ c ∈ text, (digit c).isSome) ∧ ds.length = text.length := by
  induction text generalizing ds with
  | nil =>
    rw [List.mapM_nil, Option.pure_def, Option.some.injEq] at h
    subst h
    exact ⟨nofun, rfl⟩
  | cons c text ih =>
    simp only [List.mapM_cons, Option.pure_def, Option.bind_eq_bind, Option.bind_eq_some_iff] at h
    obtain ⟨n, hn, ds, hds, heq⟩ := h
    cases heq
    have htext := ih hds
    rw [List.forall_mem_cons, hn]
    exact ⟨⟨rfl, htext.1⟩, congrArg (· + 1) htext.2⟩

theorem exists_mapM_digit {text : List UInt8} (h : ∀ c ∈ text, (digit c).isSome) :
    ∃ ds, text.mapM digit = some ds := by
  induction text with
  | nil => exact ⟨[], rfl⟩
  | cons c text ih =>
    rw [List.forall_mem_cons] at h
    obtain ⟨n, hn⟩ := Option.isSome_iff_exists.mp h.1
    obtain ⟨ds, hds⟩ := ih h.2
    refine ⟨n :: ds, ?_⟩
    rw [List.mapM_cons, hn, hds]
    rfl

/-- Padding behind characters of the alphabet is all the padding there is. -/
theorem paddingLength_append {body : List UInt8} (h : ∀ c ∈ body, (digit c).isSome) (pad : ℕ) :
    paddingLength (body ++ List.replicate pad padding) = pad := by
  have hstop : body.reverse.takeWhile (· == padding) = [] := by
    cases hbody : body.reverse with
    | nil => rfl
    | cons c rest =>
      have hc : (digit c).isSome := h c (List.mem_reverse.mp (hbody ▸ List.mem_cons_self))
      apply List.takeWhile_cons_of_neg
      rw [beq_iff_eq]
      rintro rfl
      rw [digit_padding] at hc
      cases hc
  rw [paddingLength, List.reverse_append, List.reverse_replicate,
    List.takeWhile_append_of_pos (by simp), hstop, List.append_nil, List.length_replicate]

theorem paddingLength_le (text : List UInt8) : paddingLength text ≤ text.length := by
  rw [paddingLength, ← @List.length_reverse _ text]
  exact (List.takeWhile_sublist _).length_le

/-- A text ends with its padding. -/
theorem drop_padding (text : List UInt8) :
    text.drop (text.length - paddingLength text) = List.replicate (paddingLength text) padding := by
  have hprefix := List.takeWhile_prefix (· == padding) (l := text.reverse)
  apply List.reverse_injective
  rw [List.reverse_drop, List.reverse_replicate, Nat.sub_sub_self (paddingLength_le text),
    paddingLength, ← List.prefix_iff_eq_take.mp hprefix, List.eq_replicate_iff]
  refine ⟨rfl, ?_⟩
  intro c hc
  have hpadding : (c == padding) = true :=
    List.all_eq_true.mp List.all_takeWhile c hc
  exact eq_of_beq hpadding

/-- A text of the alphabet with its padding decodes to the bytes of its digits. -/
theorem decode_append {body : List UInt8} (h : ∀ c ∈ body, (digit c).isSome) {pad : ℕ}
    (hpad : pad ≤ 2) (hlength : (body.length + pad) % 4 = 0) :
    decode (body ++ List.replicate pad padding) = (body.mapM digit).map bytes := by
  rw [decode, paddingLength_append h, List.length_append, List.length_replicate,
    if_pos ⟨hpad, hlength⟩, Nat.add_sub_cancel, List.take_left]

/-- Decoding undoes encoding. -/
theorem decode_encode (data : List UInt8) : decode (encode data) = some data := by
  have hdigits := mapM_digit_character (digits_lt data)
  have hlength : (((digits data).map character).length + 2 * data.length % 3) % 4 = 0 := by
    rw [List.length_map, digits_length]
    obtain h | h | h : data.length % 3 = 0 ∨ data.length % 3 = 1 ∨ data.length % 3 = 2 := by omega
    all_goals omega
  rw [encode, decode_append (mapM_digit_spec hdigits).1 (by omega) hlength, hdigits,
    Option.map_some, bytes_digits]

/-- The texts that decode to `n` bytes: characters of the alphabet and at most two of padding,
in groups of four. -/
theorem decode_length_iff {text : List UInt8} {n : ℕ} :
    (∃ data, decode text = some data ∧ data.length = n) ↔
      ∃ body pad, text = body ++ List.replicate pad padding ∧ (∀ c ∈ body, (digit c).isSome) ∧
        pad ≤ 2 ∧ 3 * text.length = 4 * (n + pad) := by
  constructor
  · rintro ⟨data, hdecode, rfl⟩
    rw [decode] at hdecode
    split_ifs at hdecode with h
    obtain ⟨ds, hds, rfl⟩ := Option.map_eq_some_iff.mp hdecode
    obtain ⟨hdigits, hlength⟩ := mapM_digit_spec hds
    have hle := paddingLength_le text
    refine ⟨_, _, ?_, hdigits, h.1, ?_⟩
    · rw [← drop_padding, List.take_append_drop]
    · rw [List.length_take] at hlength
      rw [bytes_length]
      omega
  · rintro ⟨body, pad, rfl, hbody, hpad, hlength⟩
    obtain ⟨ds, hds⟩ := exists_mapM_digit hbody
    rw [List.length_append, List.length_replicate] at hlength
    refine ⟨bytes ds, ?_, ?_⟩
    · rw [decode_append hbody hpad (by omega), hds]
      rfl
    · rw [bytes_length, (mapM_digit_spec hds).2]
      omega

end Base64
