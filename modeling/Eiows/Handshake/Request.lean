import Eiows.Http.Base64
import Eiows.Negotiation.Grammar

/-!
# The upgrade request

What `Server.handleUpgrade` demands of a request. Node reads header fields as
Latin-1, so a string of the request is a list of bytes here.
-/

namespace Eiows

/-- The value of a header field in `request.headers`. -/
inductive HeaderField where
  | absent
  | single (value : Bytes)
  | multiple (values : List Bytes)

/-- `headerValue`. -/
def headerValue : HeaderField → Bytes
  | .absent => []
  | .single value => value
  | .multiple values => (ascii ", ").intercalate values

/-- The whitespace of `String.prototype.trim` in Latin-1. -/
def isTrimmed (c : UInt8) : Bool := (0x09 ≤ c && c ≤ 0x0d) || c == 0x20 || c == 0xa0

/-- `trim`. -/
def trim (s : Bytes) : Bytes := ((s.dropWhile isTrimmed).reverse.dropWhile isTrimmed).reverse

/-- `toLowerCase`, on one character of Latin-1. -/
def lowerLatin1 (c : UInt8) : UInt8 :=
  if (0x41 ≤ c && c ≤ 0x5a) || (0xc0 ≤ c && c ≤ 0xde && c != 0xd7) then c + 0x20 else c

/-- `toLowerCase`. -/
def toLowerCase (s : Bytes) : Bytes := s.map lowerLatin1

/-- `hasHeaderToken`. -/
def hasHeaderToken (field : HeaderField) (token : Bytes) : Bool :=
  ((headerValue field).splitOn 0x2c).any fun part => toLowerCase (trim part) = token

/-- The characters of the regular expression in `isValidSecWebSocketKey`. -/
def isKeyCharacter (c : UInt8) : Bool :=
  (0x41 ≤ c && c ≤ 0x5a) || (0x61 ≤ c && c ≤ 0x7a) || (0x30 ≤ c && c ≤ 0x39) || c == 0x2b || c == 0x2f

/-- `isValidSecWebSocketKey`. -/
def isValidSecWebSocketKey : HeaderField → Bool
  | .single value =>
    value.length = 24 && (value.take 22).all isKeyCharacter && value.drop 22 = [0x3d, 0x3d]
  | _ => false

/-- The parts of a URL that are looked at. -/
structure ParsedURL where
  hostname : Bytes
  username : Bytes
  password : Bytes
  pathname : Bytes
  search : Bytes
  hash : Bytes

/-- `request`, as far as the handshake looks at it. A version that is no integer is `none`, and
so are `rawHeaders` that are no array. -/
structure UpgradeRequest where
  method : Bytes
  httpVersionMajor : Option ℤ
  httpVersionMinor : Option ℤ
  headers : Bytes → HeaderField
  rawHeaders : Option (List Bytes)

/-- `isHttp11OrHigher`. -/
def isHttp11OrHigher (request : UpgradeRequest) : Bool :=
  match request.httpVersionMajor, request.httpVersionMinor with
  | some major, some minor => 1 < major || (major = 1 && 1 ≤ minor)
  | _, _ => false

/-- The characters of the first regular expression in `isValidHostHeader`. -/
def isHostCharacter (c : UInt8) : Bool := 0x21 ≤ c && c ≤ 0x7e

/-- The characters of the second one. -/
def isHostDelimiter (c : UInt8) : Bool :=
  c == 0x5c || c == 0x2f || c == 0x40 || c == 0x3f || c == 0x23 || c == 0x2c

/-- The loop over `rawHeaders`, in steps of two. -/
def hostFields : List Bytes → ℕ
  | [] => 0
  | [name] => if toLowerCase name = ascii "host" then 1 else 0
  | name :: _ :: rest => (if toLowerCase name = ascii "host" then 1 else 0) + hostFields rest

/-- What `isValidHostHeader` demands of the URL. -/
def isHostURL (url : ParsedURL) : Bool :=
  url.hostname ≠ [] && url.username = [] && url.password = [] && url.pathname = ascii "/" &&
    url.search = [] && url.hash = []

/-- `isValidHostHeader`. `parseURL` is the constructor of `URL`, with `none` where it throws. -/
def isValidHostHeader (parseURL : Bytes → Option ParsedURL) (request : UpgradeRequest) : Bool :=
  match request.headers (ascii "host") with
  | .single host =>
    if host = [] || !host.all isHostCharacter || host.any isHostDelimiter then false
    else if (request.rawHeaders.map hostFields).any (· ≠ 1) then false
    else (parseURL (ascii "http://" ++ host ++ ascii "/")).any isHostURL
  | _ => false

/-- The characters of the regular expression in `selectProtocol`. -/
def isProtocolCharacter (c : UInt8) : Bool :=
  c == 0x21 || c == 0x23 || c == 0x24 || c == 0x25 || c == 0x26 || c == 0x27 || c == 0x2a ||
    c == 0x2b || c == 0x2d || c == 0x2e || c == 0x5e || c == 0x5f || c == 0x60 || c == 0x7c ||
    c == 0x7e || (0x30 ≤ c && c ≤ 0x39) || (0x41 ≤ c && c ≤ 0x5a) || (0x61 ≤ c && c ≤ 0x7a)

/-- The loop of `selectProtocol` over the protocols. -/
def checkProtocols : List Bytes → List Bytes → Bool
  | [], _ => true
  | protocol :: rest, seen =>
    if protocol = [] || !protocol.all isProtocolCharacter || seen.contains protocol then false
    else checkProtocols rest (protocol :: seen)

/-- `selectProtocol`: the first protocol, the empty string without a header, and `none` for a
header that is malformed. -/
def selectProtocol (field : HeaderField) : Option Bytes :=
  if headerValue field = [] then some []
  else
    let protocols := ((headerValue field).splitOn 0x2c).map trim
    if checkProtocols protocols [] then protocols.head? else none

section Protocols

open ExtensionsParser

theorem isProtocolCharacter_eq (c : UInt8) : isProtocolCharacter c = isTokenCharacter c := by
  revert c
  decide +kernel

theorem tokenCharacter_plain {c : UInt8} (h : isTokenCharacter c = true) :
    isTrimmed c = false ∧ c ≠ 0x2c := by
  revert c
  decide +kernel

/-- Whitespace around a protocol. -/
def IsPadding (ws : Bytes) : Prop := ∀ c ∈ ws, isTrimmed c = true

/-- A list of protocols, as a client writes it: tokens with whitespace around them, separated
by commas. -/
inductive ProtocolsText : Bytes → List Bytes → Prop
  | one {before protocol after : Bytes} (blank : IsPadding before) (token : IsToken protocol)
      (blank' : IsPadding after) : ProtocolsText (before ++ (protocol ++ after)) [protocol]
  | cons {before protocol after rest : Bytes} {protocols : List Bytes} (blank : IsPadding before)
      (token : IsToken protocol) (blank' : IsPadding after) (others : ProtocolsText rest protocols) :
      ProtocolsText (before ++ (protocol ++ after) ++ 0x2c :: rest) (protocol :: protocols)

theorem trim_padded {before token after : Bytes} (hbefore : IsPadding before)
    (hafter : IsPadding after) (htoken : IsToken token) :
    trim (before ++ (token ++ after)) = token := by
  have hstops : ∀ word : Bytes, word ≠ [] → (∀ c ∈ word, isTokenCharacter c = true) →
      ∀ rest, Stops isTrimmed (word ++ rest) := by
    intro word hne hword rest c hc
    obtain ⟨first, tail, rfl⟩ := List.exists_cons_of_ne_nil hne
    cases hc
    exact (tokenCharacter_plain (hword c List.mem_cons_self)).1
  have hback := hstops token.reverse (by simpa using htoken.nonempty)
    (fun c hc => htoken.run c (List.mem_reverse.mp hc)) []
  rw [List.append_nil] at hback
  rw [trim, dropWhile_run hbefore (hstops token htoken.nonempty htoken.run after),
    List.reverse_append, dropWhile_run (fun c hc => hafter c (List.mem_reverse.mp hc)) hback,
    List.reverse_reverse]

/-- What `trim` takes away is whitespace. -/
theorem exists_trim (s : Bytes) :
    ∃ before after, IsPadding before ∧ IsPadding after ∧ s = before ++ (trim s ++ after) := by
  have hall : ∀ t : Bytes, IsPadding (t.takeWhile isTrimmed) := fun t c hc =>
    List.all_eq_true.mp List.all_takeWhile c hc
  refine ⟨s.takeWhile isTrimmed, ((s.dropWhile isTrimmed).reverse.takeWhile isTrimmed).reverse,
    hall s, ?_, ?_⟩
  · intro c hc
    exact hall _ c (List.mem_reverse.mp hc)
  · rw [trim, ← List.reverse_append, List.takeWhile_append_dropWhile, List.reverse_reverse,
      List.takeWhile_append_dropWhile]

theorem checkProtocols_iff {protocols seen : List Bytes} :
    checkProtocols protocols seen = true ↔
      (∀ protocol ∈ protocols, IsToken protocol ∧ protocol ∉ seen) ∧ protocols.Nodup := by
  induction protocols generalizing seen with
  | nil => exact ⟨fun _ => ⟨nofun, List.nodup_nil⟩, fun _ => rfl⟩
  | cons protocol rest ih =>
    have htoken : IsToken protocol ↔ protocol ≠ [] ∧ protocol.all isProtocolCharacter = true := by
      simp only [List.all_eq_true, isProtocolCharacter_eq]
      exact isToken_iff
    rw [checkProtocols, List.forall_mem_cons, List.nodup_cons, htoken]
    split_ifs with h
    · constructor
      · exact nofun
      · rintro ⟨⟨⟨⟨hne, hall⟩, hnew⟩, -⟩, -⟩
        simp [hne, hall, hnew] at h
    · simp only [Bool.or_eq_true, decide_eq_true_eq, Bool.not_eq_true', not_or,
        Bool.not_eq_false] at h
      rw [ih]
      simp only [List.mem_cons, not_or]
      constructor
      · rintro ⟨hrest, hnodup⟩
        have hnew : protocol ∉ seen := fun hmem => h.2 (List.contains_iff_mem.mpr hmem)
        exact ⟨⟨⟨h.1, hnew⟩, fun p hp => ⟨(hrest p hp).1, (hrest p hp).2.2⟩⟩,
          fun hmem => (hrest protocol hmem).2.1 rfl, hnodup⟩
      · rintro ⟨⟨-, hrest⟩, hfirst, hnodup⟩
        exact ⟨fun p hp => ⟨(hrest p hp).1, fun heq => hfirst (heq ▸ hp), (hrest p hp).2⟩, hnodup⟩

theorem comma_notMem {before token after : Bytes} (hbefore : IsPadding before)
    (htoken : IsToken token) (hafter : IsPadding after) :
    (0x2c : UInt8) ∉ before ++ (token ++ after) := by
  have hpadding : ∀ ws : Bytes, IsPadding ws → (0x2c : UInt8) ∉ ws := by
    intro ws hws hmem
    cases hws _ hmem
  simp only [List.mem_append, not_or]
  exact ⟨hpadding before hbefore,
    fun hmem => (tokenCharacter_plain (htoken.run _ hmem)).2 rfl, hpadding after hafter⟩

/-- The protocols of a text are those that `split` and `trim` find. -/
theorem ProtocolsText.splitOn {text : Bytes} {protocols : List Bytes}
    (h : ProtocolsText text protocols) :
    (text.splitOn 0x2c).map trim = protocols ∧ ∀ protocol ∈ protocols, IsToken protocol := by
  induction h with
  | one hbefore htoken hafter =>
    rw [List.splitOn_eq_singleton (comma_notMem hbefore htoken hafter), List.map_singleton,
      trim_padded hbefore hafter htoken]
    simp [htoken]
  | cons hbefore htoken hafter others ih =>
    rw [List.splitOn_append_cons_self_of_not_mem (comma_notMem hbefore htoken hafter), List.map_cons,
      trim_padded hbefore hafter htoken, ih.1, List.forall_mem_cons]
    exact ⟨rfl, htoken, ih.2⟩

/-- What `split` finds is a list of protocols where every part is a token in whitespace. -/
theorem protocolsText_of_splitOn {text : Bytes}
    (h : ∀ protocol ∈ (text.splitOn 0x2c).map trim, IsToken protocol) :
    ProtocolsText text ((text.splitOn 0x2c).map trim) := by
  have hparts : ∀ parts : List Bytes, parts ≠ [] → (∀ part ∈ parts, IsToken (trim part)) →
      ProtocolsText ([0x2c].intercalate parts) (parts.map trim) := by
    intro parts hne htokens
    induction parts with
    | nil => exact absurd rfl hne
    | cons part parts ih =>
      rw [List.forall_mem_cons] at htokens
      obtain ⟨before, after, hbefore, hafter, hpart⟩ := exists_trim part
      by_cases hnil : parts = []
      · subst hnil
        rw [List.intercalate_singleton, List.map_singleton]
        nth_rewrite 1 [hpart]
        exact .one hbefore htokens.1 hafter
      · rw [List.intercalate_cons_of_ne_nil hnil, List.map_cons, List.append_assoc,
          List.singleton_append]
        nth_rewrite 1 [hpart]
        exact .cons hbefore htokens.1 hafter (ih hnil htokens.2)
  have htext := hparts (text.splitOn 0x2c) (List.splitOn_ne_nil _ _)
    (fun part hpart => h _ (List.mem_map_of_mem hpart))
  rwa [List.intercalate_splitOn] at htext

/-- `selectProtocol` accepts the lists of distinct protocols, and selects the first of them. -/
theorem selectProtocol_iff {field : HeaderField} (hfield : headerValue field ≠ [])
    {protocol : Bytes} :
    selectProtocol field = some protocol ↔
      ∃ rest, ProtocolsText (headerValue field) (protocol :: rest) ∧ (protocol :: rest).Nodup := by
  rw [selectProtocol, if_neg hfield]
  dsimp only
  constructor
  · intro h
    split_ifs at h with hcheck
    obtain ⟨htokens, hnodup⟩ := checkProtocols_iff.mp hcheck
    obtain ⟨rest, hrest⟩ := List.head?_eq_some_iff.mp h
    have htext := protocolsText_of_splitOn fun p hp => (htokens p hp).1
    rw [hrest] at htext hnodup
    exact ⟨rest, htext, hnodup⟩
  · rintro ⟨rest, htext, hnodup⟩
    obtain ⟨hsplit, htokens⟩ := htext.splitOn
    rw [hsplit, if_pos (checkProtocols_iff.mpr
      ⟨fun p hp => ⟨htokens p hp, List.not_mem_nil⟩, hnodup⟩)]
    rfl

end Protocols

/-- A key is valid if and only if it decodes to a nonce of 16 bytes. -/
theorem isValidSecWebSocketKey_iff {value : Bytes} :
    isValidSecWebSocketKey (.single value) = true ↔
      ∃ nonce, Base64.decode value = some nonce ∧ nonce.length = 16 := by
  have hcharacter : ∀ c, isKeyCharacter c = (Base64.digit c).isSome := by decide +kernel
  rw [Base64.decode_length_iff, isValidSecWebSocketKey]
  simp only [Bool.and_eq_true, decide_eq_true_eq, List.all_eq_true, hcharacter]
  constructor
  · rintro ⟨⟨hlength, hdigits⟩, hend⟩
    refine ⟨value.take 22, 2, ?_, hdigits, le_rfl, by omega⟩
    nth_rewrite 1 [← List.take_append_drop 22 value]
    rw [hend]
    rfl
  · rintro ⟨body, pad, rfl, hbody, hpad, hlength⟩
    simp only [List.length_append, List.length_replicate] at hlength ⊢
    obtain rfl : pad = 2 := by omega
    have hbodyLength : body.length = 22 := by omega
    rw [← hbodyLength, List.take_left, List.drop_left]
    exact ⟨⟨by omega, hbody⟩, rfl⟩

end Eiows
