import Eiows.Session.StreamWebSocket

/-!
# Extension negotiation

`ExtensionsParser` reads the `Sec-WebSocket-Extensions` header of a client, and
`ExtensionsNegotiator` accepts the first offer of `permessage-deflate` that the
server can honour. The position of the parser is the rest of its input.
-/

namespace Eiows

/-- The bit of `SLIDING_DEFLATE_WINDOW` in `enum Options`. -/
def SLIDING_DEFLATE_WINDOW : ℕ := 16

/-- The bytes of an ASCII literal. -/
def ascii (s : String) : Bytes := s.toList.map fun c => UInt8.ofNat c.toNat

/-- `ExtensionParameter`. -/
structure ExtensionParameter where
  name : Bytes
  value : Bytes := []
  hasValue : Bool := false
  deriving DecidableEq

/-- `ExtensionOffer`. -/
structure ExtensionOffer where
  name : Bytes
  parameters : List ExtensionParameter
  deriving DecidableEq

/-- The punctuation among the token characters. -/
def tokenPunctuation : Bytes :=
  [0x21, 0x23, 0x24, 0x25, 0x26, 0x27, 0x2a, 0x2b, 0x2d, 0x2e, 0x5e, 0x5f, 0x60, 0x7c, 0x7e]

/-- `isTokenCharacter`. -/
def isTokenCharacter (character : UInt8) : Bool :=
  (0x30 ≤ character && character ≤ 0x39) || (0x41 ≤ character && character ≤ 0x5a) ||
    (0x61 ≤ character && character ≤ 0x7a) || tokenPunctuation.contains character

/-- `lowerAscii`, on one character. -/
def lowerCharacter (character : UInt8) : UInt8 :=
  if 0x41 ≤ character && character ≤ 0x5a then character - 0x41 + 0x61 else character

/-- `lowerAscii`. -/
def lowerAscii (value : Bytes) : Bytes := value.map lowerCharacter

namespace ExtensionsParser

/-- The characters that `skipWhitespace` skips. -/
def isWhitespace (character : UInt8) : Bool := character == 0x20 || character == 0x09

/-- `skipWhitespace`. -/
def skipWhitespace (input : Bytes) : Bytes := input.dropWhile isWhitespace

/-- `readToken`: the token in lower case, and what follows it. -/
def readToken (input : Bytes) : Option (Bytes × Bytes) :=
  if input.takeWhile isTokenCharacter = [] then none
  else some (lowerAscii (input.takeWhile isTokenCharacter), input.dropWhile isTokenCharacter)

/-- The characters that may stand unescaped in a quoted string. -/
def isQuotedText (character : UInt8) : Bool :=
  character == 0x09 || character == 0x20 || character == 0x21 ||
    (0x23 ≤ character && character ≤ 0x5b) || (0x5d ≤ character && character != 0x7f)

/-- The characters that may not stand after a backslash. -/
def isControl (character : UInt8) : Bool := character < 0x20 || character == 0x7f

/-- The loop of `readQuotedString`, behind the opening quote. -/
def readQuotedText : Bytes → Bytes → Option (Bytes × Bytes)
  | [], _ => none
  | character :: rest, value =>
    if character = 0x22 then some (value, rest)
    else if character = 0x5c then
      match rest with
      | [] => none
      | escaped :: rest =>
        if isControl escaped then none else readQuotedText rest (value ++ [escaped])
    else if isQuotedText character then readQuotedText rest (value ++ [character])
    else none

/-- `readQuotedString`. -/
def readQuotedString : Bytes → Option (Bytes × Bytes)
  | [] => none
  | character :: rest => if character = 0x22 then readQuotedText rest [] else none

/-- The value of `readParameter`: a quoted string or a token. -/
def readValue (input : Bytes) : Option (Bytes × Bytes) :=
  if input.head? = some 0x22 then readQuotedString input else readToken input

/-- `readParameter`. -/
def readParameter (input : Bytes) : Option (ExtensionParameter × Bytes) :=
  match readToken (skipWhitespace input) with
  | none => none
  | some (name, rest) =>
    match skipWhitespace rest with
    | [] => some ({ name }, [])
    | character :: rest =>
      if character ≠ 0x3d then some ({ name }, character :: rest)
      else
        match readValue (skipWhitespace rest) with
        | none => none
        | some (value, rest) => some ({ name, value, hasValue := true }, rest)

theorem skipWhitespace_length (input : Bytes) : (skipWhitespace input).length ≤ input.length :=
  (List.dropWhile_sublist _).length_le

theorem readToken_length {input token rest : Bytes} (h : readToken input = some (token, rest)) :
    rest.length < input.length := by
  unfold readToken at h
  split_ifs at h with hempty
  cases h
  have hlength := congrArg List.length (List.takeWhile_append_dropWhile (p := isTokenCharacter)
    (l := input))
  have hpos := List.length_pos_iff.mpr hempty
  rw [List.length_append] at hlength
  omega

theorem readQuotedText_length {input value text rest : Bytes}
    (h : readQuotedText input value = some (text, rest)) : rest.length < input.length := by
  fun_induction readQuotedText input value with
  | case1 => cases h
  | case2 => cases h; simp
  | case3 => cases h
  | case4 => cases h
  | case5 _ _ _ _ _ ih =>
    have hrest := ih h
    simp only [List.length_cons]
    omega
  | case6 _ _ _ _ _ _ ih =>
    have hrest := ih h
    simp only [List.length_cons]
    omega
  | case7 => cases h

theorem readValue_length {input value rest : Bytes} (h : readValue input = some (value, rest)) :
    rest.length < input.length := by
  unfold readValue at h
  split_ifs at h
  · unfold readQuotedString at h
    split at h
    · cases h
    · split_ifs at h
      have hrest := readQuotedText_length h
      simp only [List.length_cons]
      omega
  · exact readToken_length h

theorem readParameter_length {input rest : Bytes} {parameter : ExtensionParameter}
    (h : readParameter input = some (parameter, rest)) : rest.length < input.length := by
  have hskip := skipWhitespace_length input
  unfold readParameter at h
  split at h
  · cases h
  · rename_i name rest' htoken
    have htoken := readToken_length htoken
    have hskip' := skipWhitespace_length rest'
    split at h
    · cases h
      simp only [List.length_nil]
      omega
    · rename_i character rest'' hrest
      rw [hrest] at hskip'
      simp only [List.length_cons] at hskip'
      split_ifs at h
      · cases h
        simp only [List.length_cons]
        omega
      · split at h
        · cases h
        · rename_i value rest''' hvalue
          cases h
          have hvalue := readValue_length hvalue
          have hskip'' := skipWhitespace_length rest''
          omega

/-- The inner loop of `parse`: the parameters of one offer, up to a comma or the end. -/
def readParameters (input : Bytes) (parameters : List ExtensionParameter) :
    Option (List ExtensionParameter × Bytes) :=
  match _hskip : skipWhitespace input with
  | [] => some (parameters, [])
  | character :: rest =>
    if character = 0x2c then some (parameters, character :: rest)
    else if character ≠ 0x3b then none
    else
      match _h : readParameter rest with
      | none => none
      | some (parameter, rest') => readParameters rest' (parameters ++ [parameter])
  termination_by input.length
  decreasing_by
    have hskip := skipWhitespace_length input
    have hparameter := readParameter_length _h
    rw [_hskip] at hskip
    simp only [List.length_cons] at hskip
    omega

theorem readParameters_length {input rest : Bytes} {parameters parameters' : List ExtensionParameter}
    (h : readParameters input parameters = some (parameters', rest)) :
    rest.length ≤ input.length := by
  fun_induction readParameters input parameters with
  | case1 => cases h; simp
  | case2 input parameters rest' hskip =>
    cases h
    rw [← hskip]
    exact skipWhitespace_length input
  | case3 => cases h
  | case4 => cases h
  | case5 input parameters character rest' hskip _ _ parameter rest'' hparameter ih =>
    have hskip' := skipWhitespace_length input
    have hlength := readParameter_length hparameter
    have hrest := ih h
    rw [hskip] at hskip'
    simp only [List.length_cons] at hskip'
    omega

/-- The outer loop of `parse`. -/
def readOffers (input : Bytes) (offers : List ExtensionOffer) : Option (List ExtensionOffer) :=
  match _hname : readToken input with
  | none => none
  | some (name, rest) =>
    match _hparameters : readParameters rest [] with
    | none => none
    | some (parameters, []) => some (offers ++ [{ name, parameters }])
    | some (parameters, _ :: rest) =>
      match _hskip : skipWhitespace rest with
      | [] => none
      | _ :: _ => readOffers (skipWhitespace rest) (offers ++ [{ name, parameters }])
  termination_by input.length
  decreasing_by
    have hname := readToken_length _hname
    have hparameters := readParameters_length _hparameters
    have hskip := skipWhitespace_length rest
    simp only [List.length_cons] at hparameters
    omega

/-- `parse`. -/
def parse (input : Bytes) : Option (List ExtensionOffer) :=
  match skipWhitespace input with
  | [] => some []
  | character :: rest => readOffers (character :: rest) []

end ExtensionsParser

/-- `isWindowBits`. -/
def isWindowBits (parameter : ExtensionParameter) (valueRequired : Bool) : Bool :=
  if !parameter.hasValue then !valueRequired
  else
    match parameter.value with
    | [c] => 0x38 ≤ c && c ≤ 0x39
    | [c, d] => c == 0x31 && 0x30 ≤ d && d ≤ 0x35
    | _ => false

/-- `windowBitsValue`. -/
def windowBitsValue (parameter : ExtensionParameter) : ℕ :=
  if !parameter.hasValue || !isWindowBits parameter true then 0
  else
    match parameter.value with
    | [c] => c.toNat - 0x30
    | [_, d] => 10 + d.toNat - 0x30
    | _ => 0

/-- The bits of `options` that are also set in `option` are set. -/
def wants (options : BitVec 32) (option : ℕ) : Bool := options &&& BitVec.ofNat 32 option != 0

/-- `options &= ~mask`. -/
def clearOptions (options : BitVec 32) (mask : ℕ) : BitVec 32 := options &&& ~~~BitVec.ofNat 32 mask

/-- The out-parameters of `isCompatibleOffer`. -/
structure WindowBits where
  serverMaxWindowBits : ℕ := 15
  serverMaxWindowBitsNegotiated : Bool := false
  deriving DecidableEq

/-- The loop of `isCompatibleOffer`. -/
def checkParameters (wantedOptions : BitVec 32) :
    List ExtensionParameter → List Bytes → WindowBits → Bool × WindowBits
  | [], _, out => (true, out)
  | parameter :: rest, seen, out =>
    if parameter.name ∈ seen then (false, out)
    else if parameter.name = ascii "server_no_context_takeover" then
      if parameter.hasValue || !wants wantedOptions SERVER_NO_CONTEXT_TAKEOVER then (false, out)
      else checkParameters wantedOptions rest (parameter.name :: seen) out
    else if parameter.name = ascii "client_no_context_takeover" then
      if parameter.hasValue then (false, out)
      else checkParameters wantedOptions rest (parameter.name :: seen) out
    else if parameter.name = ascii "server_max_window_bits" then
      if windowBitsValue parameter < 9 then (false, out)
      else checkParameters wantedOptions rest (parameter.name :: seen)
        ⟨windowBitsValue parameter, true⟩
    else if parameter.name = ascii "client_max_window_bits" then
      if !isWindowBits parameter false then (false, out)
      else checkParameters wantedOptions rest (parameter.name :: seen) out
    else (false, out)

/-- `isCompatibleOffer`, with its out-parameters. -/
def isCompatibleOffer (offer : ExtensionOffer) (wantedOptions : BitVec 32) : Bool × WindowBits :=
  checkParameters wantedOptions offer.parameters [] {}

/-- `ExtensionsNegotiator`. -/
structure ExtensionsNegotiator extends WindowBits where
  options : BitVec 32

namespace ExtensionsNegotiator

/-- The constructor of `ExtensionsNegotiator`. -/
def create (wantedOptions : BitVec 32) : ExtensionsNegotiator where
  options := wantedOptions

/-- The options that are cleared without `PERMESSAGE_DEFLATE`. -/
def compressionOptions : ℕ :=
  CLIENT_NO_CONTEXT_TAKEOVER ||| SERVER_NO_CONTEXT_TAKEOVER ||| SLIDING_DEFLATE_WINDOW

/-- The loop of `readOffer` over the candidates. -/
def firstCompatible (options : BitVec 32) : List ExtensionOffer → Option WindowBits
  | [] => none
  | candidate :: rest =>
    if candidate.name = ascii "permessage-deflate" ∧ (isCompatibleOffer candidate options).1 then
      some (isCompatibleOffer candidate options).2
    else firstCompatible options rest

/-- `readOffer`. -/
def readOffer (n : ExtensionsNegotiator) (offer : Bytes) : ExtensionsNegotiator :=
  if !wants n.options PERMESSAGE_DEFLATE then
    { n with options := clearOptions n.options compressionOptions }
  else
    match (ExtensionsParser.parse offer).bind (firstCompatible n.options) with
    | some bits => { n with toWindowBits := bits }
    | none =>
      { n with options :=
          clearOptions (clearOptions n.options PERMESSAGE_DEFLATE) compressionOptions }

/-- `generateOffer`. -/
def generateOffer (n : ExtensionsNegotiator) : Bytes :=
  if wants n.options PERMESSAGE_DEFLATE then
    ascii "permessage-deflate" ++
      (if wants n.options CLIENT_NO_CONTEXT_TAKEOVER then ascii "; client_no_context_takeover"
        else []) ++
      (if wants n.options SERVER_NO_CONTEXT_TAKEOVER then ascii "; server_no_context_takeover"
        else []) ++
      (if n.serverMaxWindowBitsNegotiated then
        ascii "; server_max_window_bits=" ++ ascii (toString n.serverMaxWindowBits)
        else [])
  else []

/-- `createSession` of the addon: the session and the response to the offer. -/
def createSession {Z : Zlib} (wantedOptions : BitVec 32) (maxPayload : ℕ) (extensionOffer : Bytes)
    (compressionContext : Option (CompressionContext Z)) : StreamWebSocket Z × Bytes :=
  let negotiator := (create wantedOptions).readOffer extensionOffer
  (.create negotiator.options.toNat negotiator.serverMaxWindowBits maxPayload compressionContext,
    negotiator.generateOffer)

end ExtensionsNegotiator

end Eiows
