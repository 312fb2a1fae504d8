import Eiows.Handshake.Upgrade

/-!
# What the two sides of a handshake agree on

The client reads the response with the reader of heads. What it finds there is what the
server uses: the key, the protocol, and the way messages are compressed.
-/

namespace Eiows.Handshake

open Http

theorem ascii_CRLF : ascii "\r\n" = CRLF := by decide

/-- The headers are joined to a head. -/
theorem joinHeaders_eq {headers : List Bytes} (h : headers ≠ []) :
    joinHeaders headers = writeHead headers := by
  have hend : ascii "\r\n\r\n" = CRLF ++ CRLF := by decide
  rw [joinHeaders, ascii_CRLF, hend]
  induction headers with
  | nil => exact absurd rfl h
  | cons header headers ih =>
    by_cases hnil : headers = []
    · subst hnil
      simp [writeHead]
    · rw [List.intercalate_cons_of_ne_nil hnil, List.append_assoc, ih hnil]
      simp [writeHead]

/-- The check of the headers lets lines pass. -/
theorem checkHeaders_iff {items : List (Option Bytes)} {headers : List Bytes} :
    checkHeaders items = some headers ↔
      items = headers.map some ∧ ∀ header ∈ headers, IsPlain header := by
  induction items generalizing headers with
  | nil =>
    rw [checkHeaders, Option.some.injEq]
    constructor
    · rintro rfl
      exact ⟨rfl, nofun⟩
    · rintro ⟨hitems, -⟩
      exact (List.map_eq_nil_iff.mp hitems.symm).symm
  | cons item items ih =>
    cases item with
    | none =>
      rw [checkHeaders]
      constructor
      · exact nofun
      · rintro ⟨hitems, -⟩
        cases headers <;> cases hitems
    | some header =>
      have hplain : (header.any fun c => c == 0x0d || c == 0x0a) = false ↔ IsPlain header := by
        simp [IsPlain]
      rw [checkHeaders]
      split_ifs with h
      · constructor
        · exact nofun
        · rintro ⟨hitems, hheaders⟩
          cases headers with
          | nil => cases hitems
          | cons first rest =>
            cases hitems
            rw [hplain.mpr (hheaders header List.mem_cons_self)] at h
            cases h
      · rw [Bool.not_eq_true, hplain] at h
        constructor
        · intro hmap
          obtain ⟨rest, hrest, rfl⟩ := Option.map_eq_some_iff.mp hmap
          obtain ⟨hitems, hheaders⟩ := ih.mp hrest
          rw [hitems, List.forall_mem_cons]
          exact ⟨rfl, h, hheaders⟩
        · rintro ⟨hitems, hheaders⟩
          cases headers with
          | nil => cases hitems
          | cons first rest =>
            cases hitems
            rw [List.forall_mem_cons] at hheaders
            rw [ih.mpr ⟨rfl, hheaders.2⟩]
            rfl

/-- The client reads the headers of a response if and only if there are some and none is empty. -/
theorem readHead_joinHeaders_iff {headers : List Bytes}
    (hplain : ∀ header ∈ headers, IsPlain header) :
    readHead (joinHeaders headers) = some (headers, []) ↔ headers ≠ [] ∧ [] ∉ headers := by
  by_cases hnil : headers = []
  · subst hnil
    constructor
    · intro h
      cases h
    · rintro ⟨hne, -⟩
      exact absurd rfl hne
  · rw [joinHeaders_eq hnil, ← List.append_nil (writeHead headers), readHead_writeHead_iff hplain]
    exact ⟨fun h => ⟨hnil, h⟩, fun h => h.2⟩

theorem decimal_plain (n : ℕ) : IsPlain (decimal n) := by
  intro c hc
  obtain ⟨d, hd, rfl⟩ := List.mem_map.mp hc
  rw [Nat.toString_eq_repr, Nat.repr_eq_ofList_toDigits, String.toList_ofList] at hd
  have hdigit := Nat.isDigit_of_mem_toDigits (by decide) (by decide) hd
  simp only [Char.isDigit, Bool.and_eq_true, decide_eq_true_eq] at hdigit
  have hlow : 48 ≤ d.toNat := hdigit.1
  have hhigh : d.toNat ≤ 57 := hdigit.2
  have hnat : (UInt8.ofNat d.toNat).toNat = d.toNat := UInt8.toNat_ofNat_of_lt' (lt_of_le_of_lt hhigh (by decide))
  constructor
  · intro heq
    rw [heq] at hnat
    change 13 = d.toNat at hnat
    omega
  · intro heq
    rw [heq] at hnat
    change 10 = d.toNat at hnat
    omega

/-- The lines of the response of `abortConnection`. -/
def Abort.lines (abort : Abort) : List Bytes :=
  [ascii "HTTP/1.1 " ++ decimal abort.code ++ ascii " " ++ abort.message,
    writeField (ascii "Connection") (ascii "close")] ++ abort.headers ++
  [writeField (ascii "Content-Type") (ascii "text/plain; charset=utf-8"),
    writeField (ascii "Content-Length") (decimal abort.message.length)]

theorem Abort.response_eq (abort : Abort) :
    abort.response = writeHead abort.lines ++ abort.message := by
  have hend : ascii "\r\n\r\n" = CRLF ++ CRLF := by simp [ascii, CRLF]
  have hconnection : ascii "Connection: close\r\n" =
      writeField (ascii "Connection") (ascii "close") ++ CRLF := by simp [ascii, writeField, CRLF]
  have htype : ascii "Content-Type: text/plain; charset=utf-8\r\n" =
      writeField (ascii "Content-Type") (ascii "text/plain; charset=utf-8") ++ CRLF := by
    simp [ascii, writeField, CRLF]
  have hlength : ∀ value, ascii "Content-Length: " ++ value =
      writeField (ascii "Content-Length") value := by simp [ascii, writeField]
  rw [Abort.response, Abort.lines, hend, hconnection, htype, ascii_CRLF]
  simp only [writeHead, List.map_append, List.map_cons, List.map_nil, List.flatten_append,
    List.flatten_cons, List.flatten_nil, List.append_nil, List.append_assoc, ← hlength]

/-- The client reads the lines of `abortConnection`, and the message as the body. -/
theorem Abort.readHead_response {abort : Abort} (hmessage : IsPlain abort.message)
    (hheaders : ∀ header ∈ abort.headers, IsPlain header ∧ header ≠ []) :
    readHead abort.response = some (abort.lines, abort.message) := by
  have hstatus : IsPlain (ascii "HTTP/1.1 ") := by simp [IsPlain, ascii]
  have hspace : IsPlain (ascii " ") := by simp [IsPlain, ascii]
  have hconnection : IsPlain (ascii "Connection") := by simp [IsPlain, ascii]
  have hclose : IsPlain (ascii "close") := by simp [IsPlain, ascii]
  have htype : IsPlain (ascii "Content-Type") := by simp [IsPlain, ascii]
  have htext : IsPlain (ascii "text/plain; charset=utf-8") := by simp [IsPlain, ascii]
  have hlength : IsPlain (ascii "Content-Length") := by simp [IsPlain, ascii]
  have happend : ∀ {s t : Bytes}, IsPlain s → IsPlain t → IsPlain (s ++ t) := by
    intro s t hs ht
    exact List.forall_mem_append.mpr ⟨hs, ht⟩
  rw [response_eq, readHead_writeHead_iff]
  · intro hmem
    simp [lines, writeField, ascii] at hmem
    exact (hheaders [] hmem).2 rfl
  · simp only [lines, List.forall_mem_append, List.forall_mem_cons]
    exact ⟨⟨⟨happend (happend (happend hstatus (decimal_plain _)) hspace) hmessage,
      isPlain_writeField hconnection hclose, by simp⟩, fun header h => (hheaders header h).1⟩,
      isPlain_writeField htype htext, isPlain_writeField hlength (decimal_plain _), by simp⟩

section Outcomes

variable {Z : Zlib} {platform : Platform} {server : Server} {request : UpgradeRequest}
  {call : UpgradeCall} {context : Option (CompressionContext Z)}

/-- The headers that the listeners get. -/
def offeredHeaders (platform : Platform) (server : Server) (request : UpgradeRequest)
    (context : Option (CompressionContext Z)) (protocol : Bytes) : List Bytes :=
  responseHeaders (acceptKey platform.sha1 (secKey request))
    (server.createSession request context).2 protocol

theorem respond_accepted {protocol : Bytes} {upgrade : Upgrade Z} :
    server.respond platform request call context protocol = .accepted upgrade ↔
      platform.sessionFails = false ∧ server.closing = false ∧ server.closed = false ∧
      ∃ headers, platform.onHeaders (offeredHeaders platform server request context protocol) =
          some (headers.map some, false) ∧ (∀ header ∈ headers, IsPlain header) ∧
        upgrade = server.upgrade platform request call context protocol headers := by
  constructor
  · intro h
    rw [Server.respond] at h
    dsimp only at h
    split_ifs at h with hfails
    split at h
    · cases h
    · rename_i items closing hleft
      split at h
      · cases h
      · rename_i headers hcheck
        obtain ⟨rfl, hplain⟩ := checkHeaders_iff.mp hcheck
        split_ifs at h with hclosing
        simp only [Bool.or_eq_true, not_or, Bool.not_eq_true] at hclosing
        obtain ⟨⟨hclosing, hclosed⟩, rfl⟩ := hclosing
        cases h
        exact ⟨by simpa using hfails, hclosing, hclosed, headers, hleft, hplain, rfl⟩
  · rintro ⟨hfails, hclosing, hclosed, headers, hleft, hplain, rfl⟩
    rw [offeredHeaders] at hleft
    simp [Server.respond, hfails, hclosing, hclosed, hleft, checkHeaders_iff.mpr ⟨rfl, hplain⟩]

/-- The request is one that `handleUpgrade` answers with 101. -/
structure Requested (platform : Platform) (server : Server) (request : UpgradeRequest)
    (call : UpgradeCall) (protocol : Bytes) : Prop where
  opened : server.closing = false ∧ server.closed = false
  valid : isValidUpgrade platform request call = true
  version : headerValue (request.headers (ascii "sec-websocket-version")) = ascii "13"
  protocol : selectProtocol (request.headers (ascii "sec-websocket-protocol")) = some protocol

theorem handleUpgrade_accepted {upgrade : Upgrade Z} :
    server.handleUpgrade platform request call context = .accepted upgrade ↔
      platform.sessionFails = false ∧ ∃ protocol headers,
        Requested platform server request call protocol ∧
        platform.onHeaders (offeredHeaders platform server request context protocol) =
          some (headers.map some, false) ∧
        (∀ header ∈ headers, IsPlain header) ∧
        upgrade = server.upgrade platform request call context protocol headers := by
  constructor
  · intro h
    rw [Server.handleUpgrade] at h
    dsimp only at h
    split_ifs at h with hclosing hvalid hversion
    split at h
    · cases h
    · rename_i protocol hprotocol
      obtain ⟨hfails, hnotClosing, hnotClosed, headers, hleft, hplain, rfl⟩ := respond_accepted.mp h
      refine ⟨hfails, protocol, headers, ⟨⟨hnotClosing, hnotClosed⟩, ?_, ?_, hprotocol⟩, hleft,
        hplain, rfl⟩
      · simpa using hvalid
      · simpa using hversion
  · rintro ⟨hfails, protocol, headers, ⟨⟨hclosing, hclosed⟩, hvalid, hversion, hprotocol⟩, hleft,
      hplain, rfl⟩
    have hresponds : server.respond platform request call context protocol =
        .accepted (server.upgrade platform request call context protocol headers) :=
      respond_accepted.mpr ⟨hfails, hclosing, hclosed, headers, hleft, hplain, rfl⟩
    simp only [Server.handleUpgrade, hclosing, hclosed, hvalid, hversion, hprotocol, hresponds,
      Bool.or_self, Bool.false_eq_true, if_false, Bool.not_true, ne_eq, not_true_eq_false]

theorem respond_aborted {protocol : Bytes} {abort : Abort} {written : Option Bytes}
    {disposed reported : Bool}
    (h : server.respond platform request call context protocol =
      .aborted abort written disposed reported) :
    abort ∈ [{ code := 503, message := ascii "Service Unavailable" },
      { code := 500, message := ascii "Internal Server Error" }] ∧
    written = abortConnection call.socket abort ∧ disposed = !platform.sessionFails := by
  rw [Server.respond] at h
  dsimp only at h
  split_ifs at h with hfails
  · cases h
    exact ⟨by simp, rfl, by rw [hfails]; rfl⟩
  · rw [Bool.not_eq_true] at hfails
    rw [hfails]
    split at h
    · cases h
      exact ⟨by simp, rfl, rfl⟩
    · split at h
      · cases h
        exact ⟨by simp, rfl, rfl⟩
      · split_ifs at h
        cases h
        exact ⟨by simp, rfl, rfl⟩

/-- The responses of `handleUpgrade` that are no 101. -/
def aborts : List Abort :=
  [{ code := 503, message := ascii "Service Unavailable" },
    { code := 400, message := ascii "Bad Request" },
    { code := 426, message := ascii "Upgrade Required",
      headers := [ascii "Sec-WebSocket-Version: 13"] },
    { code := 500, message := ascii "Internal Server Error" }]

/-- `handleUpgrade` aborts with one of these responses. A session that was created is disposed,
and 426 is for another version only. -/
theorem handleUpgrade_aborted {abort : Abort} {written : Option Bytes} {disposed reported : Bool}
    (h : server.handleUpgrade platform request call context =
      .aborted abort written disposed reported) :
    abort ∈ aborts ∧ written = abortConnection call.socket abort ∧
    (disposed = true ↔ platform.sessionFails = false ∧
      ∃ protocol, Requested platform server request call protocol) ∧
    (abort.code = 426 ↔ server.closing = false ∧ server.closed = false ∧
      isValidUpgrade platform request call = true ∧
      headerValue (request.headers (ascii "sec-websocket-version")) ∉ [[], ascii "13"]) := by
  rw [Server.handleUpgrade] at h
  dsimp only at h
  split_ifs at h with hclosing hvalid hversion hpresent
  · cases h
    refine ⟨by simp [aborts], rfl, ⟨nofun, ?_⟩, nofun, ?_⟩
    · rintro ⟨-, protocol, hrequested⟩
      simp [hrequested.opened] at hclosing
    · rintro ⟨hnotClosing, hnotClosed, -⟩
      simp [hnotClosing, hnotClosed] at hclosing
  · cases h
    refine ⟨by simp [aborts], rfl, ⟨nofun, ?_⟩, nofun, ?_⟩
    · rintro ⟨-, protocol, hrequested⟩
      simp [hrequested.valid] at hvalid
    · rintro ⟨-, -, hisValid, -⟩
      simp [hisValid] at hvalid
  · cases h
    simp only [Bool.or_eq_true, not_or, Bool.not_eq_true] at hclosing
    refine ⟨by simp [aborts], rfl, ⟨nofun, ?_⟩, fun _ => ⟨hclosing.1, hclosing.2, ?_, ?_⟩,
      fun _ => rfl⟩
    · rintro ⟨-, protocol, hrequested⟩
      exact absurd hrequested.version hversion
    · simpa using hvalid
    · simp [hversion, hpresent]
  · cases h
    refine ⟨by simp [aborts], rfl, ⟨nofun, ?_⟩, nofun, ?_⟩
    · rintro ⟨-, protocol, hrequested⟩
      exact absurd hrequested.version hversion
    · rintro ⟨-, -, -, hother⟩
      simp only [ne_eq, not_not] at hpresent
      simp [hpresent] at hother
  · simp only [Bool.or_eq_true, not_or, Bool.not_eq_true] at hclosing
    simp only [ne_eq, not_not] at hversion
    split at h
    · rename_i hprotocol
      cases h
      refine ⟨by simp [aborts], rfl, ⟨nofun, ?_⟩, nofun, ?_⟩
      · rintro ⟨-, protocol, hrequested⟩
        rw [hrequested.protocol] at hprotocol
        cases hprotocol
      · rintro ⟨-, -, -, hother⟩
        simp [hversion] at hother
    · rename_i protocol hprotocol
      obtain ⟨hmem, hwritten, hdisposed⟩ := respond_aborted h
      refine ⟨?_, hwritten, ?_, ?_⟩
      · simp only [List.mem_cons, List.not_mem_nil, or_false] at hmem
        obtain rfl | rfl := hmem <;> simp [aborts]
      · rw [hdisposed, Bool.not_eq_true']
        exact ⟨fun hfails => ⟨hfails, protocol, hclosing, by simpa using hvalid, hversion,
          hprotocol⟩, fun hcreated => hcreated.1⟩
      · constructor
        · intro hcode
          simp only [List.mem_cons, List.not_mem_nil, or_false] at hmem
          obtain rfl | rfl := hmem <;> cases hcode
        · rintro ⟨-, -, -, hother⟩
          simp [hversion] at hother

/-- What a client writes to ask for a WebSocket. -/
structure IsHandshake (parseURL : Bytes → Option ParsedURL) (request : UpgradeRequest) : Prop where
  method : request.method = ascii "GET"
  version : ∃ major minor, request.httpVersionMajor = some major ∧
    request.httpVersionMinor = some minor ∧ (1 < major ∨ major = 1 ∧ 1 ≤ minor)
  /-- There is one host, and it is a host of a URL and nothing else. -/
  host : ∃ host url, request.headers (ascii "host") = .single host ∧ host ≠ [] ∧
    (∀ c ∈ host, isHostCharacter c = true ∧ isHostDelimiter c = false) ∧
    (∀ fields, request.rawHeaders = some fields → hostFields fields = 1) ∧
    parseURL (ascii "http://" ++ host ++ ascii "/") = some url ∧ isHostURL url = true
  /-- The key is a nonce of 16 bytes. -/
  key : ∃ key nonce, request.headers (ascii "sec-websocket-key") = .single key ∧
    Base64.decode key = some nonce ∧ nonce.length = 16
  upgrade : toLowerCase (headerValue (request.headers (ascii "upgrade"))) = ascii "websocket"
  connection : ∃ part ∈ (headerValue (request.headers (ascii "connection"))).splitOn 0x2c,
    toLowerCase (trim part) = ascii "upgrade"

theorem isHttp11OrHigher_iff : isHttp11OrHigher request = true ↔
    ∃ major minor, request.httpVersionMajor = some major ∧ request.httpVersionMinor = some minor ∧
      (1 < major ∨ major = 1 ∧ 1 ≤ minor) := by
  rw [isHttp11OrHigher]
  cases request.httpVersionMajor with
  | none => simp
  | some major =>
    cases request.httpVersionMinor with
    | none => simp
    | some minor => simp

theorem isValidHostHeader_iff {parseURL : Bytes → Option ParsedURL} :
    isValidHostHeader parseURL request = true ↔
      ∃ host url, request.headers (ascii "host") = .single host ∧ host ≠ [] ∧
        (∀ c ∈ host, isHostCharacter c = true ∧ isHostDelimiter c = false) ∧
        (∀ fields, request.rawHeaders = some fields → hostFields fields = 1) ∧
        parseURL (ascii "http://" ++ host ++ ascii "/") = some url ∧ isHostURL url = true := by
  rw [isValidHostHeader]
  cases hfield : request.headers (ascii "host") with
  | absent => simp
  | multiple hosts => simp
  | single host =>
    have hcharacters : (host = [] ∨ host.all isHostCharacter = false) ∨
        host.any isHostDelimiter = true ↔
          ¬(host ≠ [] ∧ ∀ c ∈ host, isHostCharacter c = true ∧ isHostDelimiter c = false) := by
      simp only [List.all_eq_false, List.any_eq_true]
      grind
    have hfields : (request.rawHeaders.map hostFields).any (· ≠ 1) = true ↔
        ¬∀ fields, request.rawHeaders = some fields → hostFields fields = 1 := by
      cases request.rawHeaders <;> simp
    have hurl : ((parseURL (ascii "http://" ++ host ++ ascii "/")).any isHostURL = true) ↔
        ∃ url, parseURL (ascii "http://" ++ host ++ ascii "/") = some url ∧ isHostURL url = true := by
      cases parseURL (ascii "http://" ++ host ++ ascii "/") <;> simp
    simp only [Bool.or_eq_true, decide_eq_true_eq, Bool.not_eq_true']
    split_ifs with hbad hmany
    · have hnone := hcharacters.mp hbad
      constructor
      · exact nofun
      · rintro ⟨host', url, hhost, hne, hall, -⟩
        cases hhost
        exact absurd ⟨hne, hall⟩ hnone
    · have hnone := hfields.mp hmany
      constructor
      · exact nofun
      · rintro ⟨host', url, hhost, -, -, hone, -⟩
        exact absurd hone hnone
    · rw [hcharacters, not_not] at hbad
      rw [hfields, not_not] at hmany
      rw [hurl]
      constructor
      · rintro ⟨url, hparse, hisURL⟩
        exact ⟨host, url, rfl, hbad.1, hbad.2, hmany, hparse, hisURL⟩
      · rintro ⟨host', url, hhost, -, -, -, hparse, hisURL⟩
        cases hhost
        exact ⟨url, hparse, hisURL⟩

theorem isValidUpgrade_iff :
    isValidUpgrade platform request call = true ↔
      (∃ socket, call.socket = some socket ∧ socket.writable = true) ∧ call.callback = true ∧
        IsHandshake platform.parseURL request := by
  have hsocket : (call.socket.map (·.writable)).getD false = true ↔
      ∃ socket, call.socket = some socket ∧ socket.writable = true := by
    cases call.socket <;> simp
  have hkey : isValidSecWebSocketKey (request.headers (ascii "sec-websocket-key")) = true ↔
      ∃ key nonce, request.headers (ascii "sec-websocket-key") = .single key ∧
        Base64.decode key = some nonce ∧ nonce.length = 16 := by
    cases hfield : request.headers (ascii "sec-websocket-key") with
    | absent => simp [isValidSecWebSocketKey]
    | multiple keys => simp [isValidSecWebSocketKey]
    | single key => simp [isValidSecWebSocketKey_iff]
  have htoken : hasHeaderToken (request.headers (ascii "connection")) (ascii "upgrade") = true ↔
      ∃ part ∈ (headerValue (request.headers (ascii "connection"))).splitOn 0x2c,
        toLowerCase (trim part) = ascii "upgrade" := by
    simp [hasHeaderToken]
  simp only [isValidUpgrade, Bool.and_eq_true, decide_eq_true_eq, hsocket, hkey, htoken,
    isHttp11OrHigher_iff, isValidHostHeader_iff]
  constructor
  · rintro ⟨⟨⟨⟨⟨⟨⟨hwritable, hcallback⟩, hmethod⟩, hhttp⟩, hhost⟩, hnonce⟩, hupgrade⟩, hconnection⟩
    exact ⟨hwritable, hcallback, hmethod, hhttp, hhost, hnonce, hupgrade, hconnection⟩
  · rintro ⟨hwritable, hcallback, hmethod, hhttp, hhost, hnonce, hupgrade, hconnection⟩
    exact ⟨⟨⟨⟨⟨⟨⟨hwritable, hcallback⟩, hmethod⟩, hhttp⟩, hhost⟩, hnonce⟩, hupgrade⟩, hconnection⟩

/-- `handleUpgrade` accepts the handshakes of version 13 with a list of distinct subprotocols or
none, unless creating the session fails, a listener throws, closes the server, or leaves
something else than lines. -/
theorem handleUpgrade_accepts_iff :
    (∃ upgrade, server.handleUpgrade platform request call context = .accepted upgrade) ↔
      (server.closing = false ∧ server.closed = false) ∧
      ((∃ socket, call.socket = some socket ∧ socket.writable = true) ∧ call.callback = true ∧
        IsHandshake platform.parseURL request) ∧
      headerValue (request.headers (ascii "sec-websocket-version")) = ascii "13" ∧
      platform.sessionFails = false ∧
      ∃ (protocol : Bytes) (headers : List Bytes),
        (headerValue (request.headers (ascii "sec-websocket-protocol")) = [] ∧ protocol = [] ∨
          ∃ rest, ProtocolsText (headerValue (request.headers (ascii "sec-websocket-protocol")))
            (protocol :: rest) ∧ (protocol :: rest).Nodup) ∧
        platform.onHeaders (offeredHeaders platform server request context protocol) =
          some (headers.map some, false) ∧
        ∀ header ∈ headers, IsPlain header := by
  have hprotocol : ∀ protocol, selectProtocol (request.headers (ascii "sec-websocket-protocol")) =
      some protocol ↔
        (headerValue (request.headers (ascii "sec-websocket-protocol")) = [] ∧ protocol = [] ∨
          ∃ rest, ProtocolsText (headerValue (request.headers (ascii "sec-websocket-protocol")))
            (protocol :: rest) ∧ (protocol :: rest).Nodup) := by
    intro protocol
    by_cases hnil : headerValue (request.headers (ascii "sec-websocket-protocol")) = []
    · have hempty : ∀ protocols, ¬ProtocolsText [] protocols := by
        intro protocols htext
        cases hsplit : htext.splitOn.1 with
        | refl =>
          have htoken := htext.splitOn.2 [] (by simp [trim])
          exact htoken.nonempty rfl
      rw [selectProtocol, if_pos hnil, hnil, Option.some.injEq]
      simp [hempty, eq_comm]
    · rw [selectProtocol_iff hnil]
      simp [hnil]
  constructor
  · rintro ⟨upgrade, h⟩
    obtain ⟨hfails, protocol, headers, hrequested, hleft, hplain, -⟩ := handleUpgrade_accepted.mp h
    exact ⟨hrequested.opened, isValidUpgrade_iff.mp hrequested.valid, hrequested.version, hfails,
      protocol, headers, (hprotocol protocol).mp hrequested.protocol, hleft, hplain⟩
  · rintro ⟨hopened, hvalid, hversion, hfails, protocol, headers, hselected, hleft, hplain⟩
    exact ⟨_, handleUpgrade_accepted.mpr ⟨hfails, protocol, headers,
      ⟨hopened, isValidUpgrade_iff.mpr hvalid, hversion, (hprotocol protocol).mpr hselected⟩, hleft,
      hplain, rfl⟩⟩

/-- What the listeners of `headers` leave is what the client reads, and the head ends behind it,
if and only if they leave no empty line and not nothing. -/
theorem response_exact_iff {upgrade : Upgrade Z}
    (h : server.handleUpgrade platform request call context = .accepted upgrade) :
    ∃ headers,
      platform.onHeaders (offeredHeaders platform server request context upgrade.protocol) =
        some (headers.map some, false) ∧
      (readHead upgrade.response = some (headers, []) ↔ headers ≠ [] ∧ [] ∉ headers) := by
  obtain ⟨-, protocol, headers, -, hleft, hplain, rfl⟩ := handleUpgrade_accepted.mp h
  exact ⟨headers, hleft, readHead_joinHeaders_iff hplain⟩

theorem aborts_plain : ∀ abort ∈ aborts, IsPlain abort.message ∧
    ∀ header ∈ abort.headers, IsPlain header ∧ header ≠ [] := by
  simp [aborts, IsPlain, ascii]

/-- The fields of these responses. -/
theorem fieldValues_aborts : ∀ abort ∈ aborts,
    fieldValues (ascii "Connection") abort.lines = [ascii "close"] ∧
      fieldValues (ascii "Content-Length") abort.lines = [decimal abort.message.length] ∧
      fieldValues (ascii "Sec-WebSocket-Version") abort.lines =
        if abort.code = 426 then [ascii "13"] else [] := by
  decide +kernel

/-- What a client reads when `handleUpgrade` aborts: one message with the code, its length, and
the version the server speaks if it is this that it aborts for. -/
theorem handleUpgrade_rejects {abort : Abort} {written : Option Bytes} {disposed reported : Bool}
    (h : server.handleUpgrade platform request call context =
      .aborted abort written disposed reported) :
    (written = none ↔ ∀ socket, call.socket = some socket → socket.destroyed = true) ∧
    (∀ response, written = some response → ∃ lines, readHead response = some (lines, abort.message) ∧
      lines.head? = some (ascii "HTTP/1.1 " ++ decimal abort.code ++ ascii " " ++ abort.message) ∧
      fieldValues (ascii "Connection") lines = [ascii "close"] ∧
      fieldValues (ascii "Content-Length") lines = [decimal abort.message.length] ∧
      fieldValues (ascii "Sec-WebSocket-Version") lines =
        if abort.code = 426 then [ascii "13"] else []) ∧
    (disposed = true ↔ platform.sessionFails = false ∧
      ∃ protocol, Requested platform server request call protocol) ∧
    (abort.code = 426 ↔ server.closing = false ∧ server.closed = false ∧
      isValidUpgrade platform request call = true ∧
      headerValue (request.headers (ascii "sec-websocket-version")) ∉ [[], ascii "13"]) := by
  obtain ⟨hmem, rfl, hdisposed, hversion⟩ := handleUpgrade_aborted h
  refine ⟨?_, ?_, hdisposed, hversion⟩
  · rw [abortConnection]
    cases call.socket <;> simp
  · intro response hresponse
    rw [abortConnection] at hresponse
    split_ifs at hresponse
    cases hresponse
    exact ⟨abort.lines, (aborts_plain abort hmem).elim Abort.readHead_response, rfl,
      fieldValues_aborts abort hmem⟩

end Outcomes

section Agreement

open ExtensionsNegotiator ExtensionsParser

/-- The answer of `createSession` to an offer, and the session behind it. -/
structure Negotiated {Z : Zlib} (wantedOptions : BitVec 32) (offers text : Bytes)
    (session : Session Z) : Prop where
  selected : ∃ before offer after answer, ExtensionsText offers (before ++ offer :: after) ∧
    (∀ rejected ∈ before, ¬Acceptable wantedOptions rejected) ∧ Acceptable wantedOptions offer ∧
    ExtensionsText text [answer] ∧ Answers wantedOptions offer answer ∧ Compresses answer session

/-- `createSession` answers an offer exactly where the session compresses. -/
theorem createSession_negotiated {Z : Zlib} (wantedOptions : BitVec 32) (maxPayload : ℕ)
    (offers : Bytes) (context : Option (CompressionContext Z)) :
    let created := ExtensionsNegotiator.createSession wantedOptions maxPayload offers context
    created.2 = [] ∧ created.1.session.compressionStatus = .disabled ∨
      created.2 ≠ [] ∧ wants wantedOptions PERMESSAGE_DEFLATE = true ∧
        Negotiated wantedOptions offers created.2 created.1.session := by
  intro created
  by_cases h : wants wantedOptions PERMESSAGE_DEFLATE = true ∧
      ∃ list, ExtensionsText offers list ∧ ∃ offer ∈ list, Acceptable wantedOptions offer
  · obtain ⟨hwanted, list, htext, hoffer⟩ := h
    obtain ⟨before, offer, after, rfl, hbefore, hacceptable⟩ := exists_first hoffer
    have hn := readOffer_accepts hwanted htext hbefore hacceptable
    set n := (ExtensionsNegotiator.create wantedOptions).readOffer offers
    have hoptions : n.options = wantedOptions := by rw [hn]
    have hbits : n.toWindowBits = (isCompatibleOffer offer wantedOptions).2 := by rw [hn]
    have hwants : wants n.options PERMESSAGE_DEFLATE = true := by rw [hoptions, hwanted]
    have hanswers := answer_answers hacceptable hoptions hbits
    have hanswer : ExtensionsText n.generateOffer [n.answer] := by
      apply generateOffer_text hwants
      intro hnegotiated
      obtain ⟨m, hm⟩ : ∃ m, offer.Assigns "server_max_window_bits" m :=
        ⟨_, (hanswers.serverMaxWindowBits _).mp (answer_assigns.mpr ⟨hnegotiated, rfl⟩)⟩
      obtain ⟨k, hlow, hhigh, -, hlimit⟩ := hacceptable.assigned hm
      rw [hbits, hlimit]
      exact ⟨le_trans (by decide) hlow, hhigh⟩
    right
    constructor
    · intro hempty
      have hname : n.generateOffer ≠ [] := by
        rw [generateOffer, if_pos hwants]
        simp [ascii]
      exact hname hempty
    · exact ⟨hwanted, before, offer, after, n.answer, htext, hbefore, hacceptable, hanswer, hanswers,
        create_compresses hwants (hoptions ▸ hacceptable) (hoptions ▸ hbits) maxPayload context⟩
  · have hrefused : wants ((ExtensionsNegotiator.create wantedOptions).readOffer offers).options
        PERMESSAGE_DEFLATE = false := by
      refine readOffer_refuses ?_ PERMESSAGE_DEFLATE (by simp)
      intro hwanted list htext offer hmem hacceptable
      exact h ⟨hwanted, list, htext, offer, hmem, hacceptable⟩
    left
    constructor
    · change generateOffer _ = []
      rw [generateOffer, if_neg (by simp [hrefused])]
    · have hdisabled : ¬hasOption ((ExtensionsNegotiator.create wantedOptions).readOffer
          offers).options.toNat PERMESSAGE_DEFLATE = true := by
        rw [hasOption_toNat _ (by decide), hrefused]
        decide
      change (Session.create _ _ maxPayload context).compressionStatus = .disabled
      rw [Session.create, if_neg hdisabled]

/-- What a client finds in the lines of an answer to its request, and what the server does. -/
structure Agreement {Z : Zlib} (options : ServerOptions) (sha1 : Bytes → Bytes)
    (request : UpgradeRequest) (lines : List Bytes) (upgrade : Upgrade Z) : Prop where
  status : lines.head? = some (ascii "HTTP/1.1 101 Switching Protocols")
  switched : fieldValues (ascii "Upgrade") lines = [ascii "websocket"]
  connection : fieldValues (ascii "Connection") lines = [ascii "Upgrade"]
  /-- The key is answered with the hash of the nonce. -/
  accept : ∃ key nonce accept, request.headers (ascii "sec-websocket-key") = .single key ∧
    Base64.decode key = some nonce ∧ nonce.length = 16 ∧
    fieldValues (ascii "Sec-WebSocket-Accept") lines = [accept] ∧
    Base64.decode accept = some (sha1 (key ++ ascii "258EAFA5-E914-47DA-95CA-C5AB0DC85B11"))
  /-- No protocol is answered unless the client asks for one, and then it is its first. -/
  protocol :
    headerValue (request.headers (ascii "sec-websocket-protocol")) = [] ∧ upgrade.protocol = [] ∧
      fieldValues (ascii "Sec-WebSocket-Protocol") lines = [] ∨
    ∃ rest, ProtocolsText (headerValue (request.headers (ascii "sec-websocket-protocol")))
        (upgrade.protocol :: rest) ∧ (upgrade.protocol :: rest).Nodup ∧
      fieldValues (ascii "Sec-WebSocket-Protocol") lines = [upgrade.protocol]
  /-- No extension is answered unless the session compresses, and then as the answer says. -/
  extensions :
    upgrade.session.session.compressionStatus = .disabled ∧
      fieldValues (ascii "Sec-WebSocket-Extensions") lines = [] ∨
    ∃ deflate answer, options.perMessageDeflate = some deflate ∧
      fieldValues (ascii "Sec-WebSocket-Extensions") lines = [answer] ∧
      Negotiated (BitVec.ofNat 32 deflate.nativeOptions) (extensionOffer request) answer
        upgrade.session.session

/-- The lines of `headers` are fields behind a status line. -/
theorem responseHeaders_eq (accept extensions protocol : Bytes) :
    responseHeaders accept extensions protocol =
      ascii "HTTP/1.1 101 Switching Protocols" ::
      writeField (ascii "Upgrade") (ascii "websocket") ::
      writeField (ascii "Connection") (ascii "Upgrade") ::
      writeField (ascii "Sec-WebSocket-Accept") accept ::
      ((if extensions = [] then [] else [writeField (ascii "Sec-WebSocket-Extensions") extensions]) ++
        (if protocol = [] then [] else [writeField (ascii "Sec-WebSocket-Protocol") protocol])) := by
  simp [responseHeaders, writeField, ascii]

theorem responseHeaders_nonempty (accept extensions protocol : Bytes) :
    [] ∉ responseHeaders accept extensions protocol := by
  rw [responseHeaders_eq]
  by_cases he : extensions = []
  all_goals by_cases hp : protocol = []
  all_goals simp [he, hp, writeField, ascii]

/-- The fields of the response. -/
theorem fieldValues_responseHeaders (accept extensions protocol : Bytes) :
    let lines := responseHeaders accept extensions protocol
    fieldValues (ascii "Upgrade") lines = [ascii "websocket"] ∧
      fieldValues (ascii "Connection") lines = [ascii "Upgrade"] ∧
      fieldValues (ascii "Sec-WebSocket-Accept") lines = [accept] ∧
      fieldValues (ascii "Sec-WebSocket-Extensions") lines =
        (if extensions = [] then [] else [extensions]) ∧
      fieldValues (ascii "Sec-WebSocket-Protocol") lines =
        (if protocol = [] then [] else [protocol]) := by
  intro lines
  have hstatus : 0x3a ∉ ascii "HTTP/1.1 101 Switching Protocols" := by simp [ascii]
  have hupgrade : 0x3a ∉ ascii "Upgrade" := by simp [ascii]
  have hconnection : 0x3a ∉ ascii "Connection" := by simp [ascii]
  have haccept : 0x3a ∉ ascii "Sec-WebSocket-Accept" := by simp [ascii]
  have hextensions : 0x3a ∉ ascii "Sec-WebSocket-Extensions" := by simp [ascii]
  have hprotocol : 0x3a ∉ ascii "Sec-WebSocket-Protocol" := by simp [ascii]
  have hlines : lines = _ := responseHeaders_eq accept extensions protocol
  rw [hlines]
  have hnil : ∀ name, fieldValues name [] = [] := fun name => rfl
  by_cases he : extensions = []
  all_goals by_cases hp : protocol = []
  all_goals
    simp only [he, hp, if_true, if_false, List.nil_append, List.append_nil, List.cons_append,
      fieldValues_cons, hnil, fieldValue_of_notMem hstatus, fieldValue_writeField hupgrade,
      fieldValue_writeField hconnection, fieldValue_writeField haccept,
      fieldValue_writeField hextensions, fieldValue_writeField hprotocol]
    simp [ascii, lowerName]

theorem checkLimit_le {name : String} {default n : ℕ} {limit : Limit} (hdefault : default < 2 ^ 31)
    (h : checkLimit name default limit = .ok n) : n < 2 ^ 31 := by
  cases limit with
  | missing =>
    cases h
    exact hdefault
  | integer value =>
    rw [checkLimit] at h
    split_ifs at h with hrange
    cases h
    simp only [Bool.or_eq_true, decide_eq_true_eq, not_or, not_lt] at hrange
    omega
  | malformed => cases h

/-- What the constructor makes of the options. -/
theorem Server.create_spec {options : ServerOptions} {server : Server}
    (h : Server.create options = .ok server) :
    server.nativeOptions = (options.perMessageDeflate.map (·.nativeOptions)).getD 0 ∧
      server.maxPayload < 2 ^ 31 := by
  rw [Server.create] at h
  cases hpayload : checkLimit "maxPayload" DEFAULT_PAYLOAD_LIMIT options.maxPayload with
  | error message =>
    rw [hpayload] at h
    cases h
  | ok maxPayload =>
    cases hbackpressure :
        checkLimit "maxBackpressure" DEFAULT_BACKPRESSURE_LIMIT options.maxBackpressure with
    | error message =>
      rw [hpayload, hbackpressure] at h
      cases h
    | ok maxBackpressure =>
      rw [hpayload, hbackpressure] at h
      cases h
      exact ⟨rfl, checkLimit_le (by decide) hpayload⟩

theorem Requested.nonce {platform : Platform} {server : Server} {request : UpgradeRequest}
    {call : UpgradeCall} {protocol : Bytes}
    (h : Requested platform server request call protocol) :
    ∃ key nonce, request.headers (ascii "sec-websocket-key") = .single key ∧
      Base64.decode key = some nonce ∧ nonce.length = 16 := by
  have hvalid := h.valid
  simp only [isValidUpgrade, Bool.and_eq_true] at hvalid
  have hkey := hvalid.1.1.2
  cases hfield : request.headers (ascii "sec-websocket-key") with
  | absent =>
    rw [hfield] at hkey
    cases hkey
  | single key =>
    rw [hfield] at hkey
    obtain ⟨nonce, hdecode, hlength⟩ := isValidSecWebSocketKey_iff.mp hkey
    exact ⟨key, nonce, rfl, hdecode, hlength⟩
  | multiple keys =>
    rw [hfield] at hkey
    cases hkey

/-- A protocol that is selected is the first of the list, and there is none without a list. -/
theorem Requested.selected {platform : Platform} {server : Server} {request : UpgradeRequest}
    {call : UpgradeCall} {protocol : Bytes}
    (h : Requested platform server request call protocol) :
    headerValue (request.headers (ascii "sec-websocket-protocol")) = [] ∧ protocol = [] ∨
      ∃ rest, ProtocolsText (headerValue (request.headers (ascii "sec-websocket-protocol")))
        (protocol :: rest) ∧ (protocol :: rest).Nodup ∧ protocol ≠ [] := by
  by_cases hnil : headerValue (request.headers (ascii "sec-websocket-protocol")) = []
  · have hprotocol := h.protocol
    rw [selectProtocol, if_pos hnil] at hprotocol
    cases hprotocol
    exact .inl ⟨hnil, rfl⟩
  · obtain ⟨rest, htext, hnodup⟩ := (selectProtocol_iff hnil).mp h.protocol
    exact .inr ⟨rest, htext, hnodup, (htext.splitOn.2 protocol List.mem_cons_self).nonempty⟩

/-- The headers that the listeners get agree with the upgrade. -/
theorem offeredHeaders_agree {Z : Zlib} {options : ServerOptions} {platform : Platform}
    {server : Server} {request : UpgradeRequest} {call : UpgradeCall}
    {context : Option (CompressionContext Z)} {protocol : Bytes}
    (hserver : Server.create options = .ok server)
    (h : Requested platform server request call protocol) (headers : List Bytes) :
    Agreement options platform.sha1 request (offeredHeaders platform server request context protocol)
      (server.upgrade platform request call context protocol headers) := by
  obtain ⟨hupgrade, hconnection, haccept, hextensions, hprotocol⟩ :=
    fieldValues_responseHeaders (acceptKey platform.sha1 (secKey request))
      (server.createSession request context).2 protocol
  constructor
  · rw [offeredHeaders, responseHeaders_eq]
    rfl
  · exact hupgrade
  · exact hconnection
  · obtain ⟨key, nonce, hkey, hdecode, hlength⟩ := h.nonce
    refine ⟨key, nonce, _, hkey, hdecode, hlength, haccept, ?_⟩
    rw [acceptKey, Base64.decode_encode, secKey, hkey]
    rfl
  · rw [offeredHeaders, hprotocol]
    obtain ⟨hnone, rfl⟩ | ⟨rest, htext, hnodup, hne⟩ := h.selected
    · exact .inl ⟨hnone, rfl, rfl⟩
    · exact .inr ⟨rest, htext, hnodup, if_neg hne⟩
  · rw [offeredHeaders, hextensions]
    obtain ⟨hempty, hdisabled⟩ | ⟨hne, hwanted, hnegotiated⟩ := createSession_negotiated
      (BitVec.ofNat 32 server.nativeOptions) server.maxPayload (extensionOffer request) context
    · exact .inl ⟨hdisabled, if_pos hempty⟩
    · right
      have hoptions := (Server.create_spec hserver).1
      cases hdeflate : options.perMessageDeflate with
      | none =>
        rw [hoptions, hdeflate] at hwanted
        cases hwanted
      | some deflate =>
        have hnative : server.nativeOptions = deflate.nativeOptions := by
          rw [hoptions, hdeflate]
          rfl
        refine ⟨deflate, _, rfl, if_neg hne, ?_⟩
        rw [← hnative]
        exact hnegotiated

/-- The fields of a response that belong to the handshake. -/
def handshakeFields : List Bytes :=
  [ascii "Upgrade", ascii "Connection", ascii "Sec-WebSocket-Accept",
    ascii "Sec-WebSocket-Protocol", ascii "Sec-WebSocket-Extensions"]

section Added

variable {Z : Zlib} {options : ServerOptions} {sha1 : Bytes → Bytes} {request : UpgradeRequest}
  {lines added : List Bytes} {upgrade : Upgrade Z}

theorem eq_nil_of_singletons {name value value' : Bytes} (h : fieldValues name lines = [value])
    (h' : fieldValues name (lines ++ added) = [value']) : fieldValues name added = [] := by
  rw [fieldValues_append, h, List.singleton_append, List.cons.injEq] at h'
  exact h'.2

theorem eq_nil_of_nil {name : Bytes} (h : fieldValues name (lines ++ added) = []) :
    fieldValues name added = [] := by
  rw [fieldValues_append] at h
  exact (List.append_eq_nil_iff.mp h).2

/-- A response that agrees does so with further lines, if and only if they leave the fields of
the handshake alone. -/
theorem Agreement.append_iff (h : Agreement options sha1 request lines upgrade) :
    Agreement options sha1 request (lines ++ added) upgrade ↔
      ∀ name ∈ handshakeFields, fieldValues name added = [] := by
  constructor
  · intro h'
    have haccept : fieldValues (ascii "Sec-WebSocket-Accept") added = [] := by
      obtain ⟨_, _, _, -, -, -, haccept, -⟩ := h.accept
      obtain ⟨_, _, _, -, -, -, haccept', -⟩ := h'.accept
      exact eq_nil_of_singletons haccept haccept'
    have hprotocol : fieldValues (ascii "Sec-WebSocket-Protocol") added = [] := by
      obtain ⟨-, -, hnone⟩ | ⟨_, htext, -, hsome⟩ := h'.protocol
      · exact eq_nil_of_nil hnone
      · obtain ⟨-, hempty, -⟩ | ⟨_, -, -, hsome'⟩ := h.protocol
        · exact absurd hempty (htext.splitOn.2 _ List.mem_cons_self).nonempty
        · exact eq_nil_of_singletons hsome' hsome
    have hextensions : fieldValues (ascii "Sec-WebSocket-Extensions") added = [] := by
      obtain ⟨-, hnone⟩ | ⟨_, _, -, hsome, hnegotiated⟩ := h'.extensions
      · exact eq_nil_of_nil hnone
      · obtain ⟨hdisabled, -⟩ | ⟨_, _, -, hsome', -⟩ := h.extensions
        · obtain ⟨_, _, _, _, -, -, -, -, -, hcompresses⟩ := hnegotiated.selected
          cases hdisabled.symm.trans hcompresses.enabled
        · exact eq_nil_of_singletons hsome' hsome
    simp only [handshakeFields, List.forall_mem_cons, List.not_mem_nil, false_imp_iff, forall_const]
    exact ⟨eq_nil_of_singletons h.switched h'.switched,
      eq_nil_of_singletons h.connection h'.connection, haccept, hprotocol, hextensions, trivial⟩
  · intro hnone
    have hkeeps : ∀ name ∈ handshakeFields,
        fieldValues name (lines ++ added) = fieldValues name lines := by
      intro name hname
      rw [fieldValues_append, hnone name hname, List.append_nil]
    simp only [handshakeFields, List.forall_mem_cons] at hkeeps
    obtain ⟨hswitched, hconnection, haccept, hprotocol, hextensions, -⟩ := hkeeps
    have hstatus : (lines ++ added).head? = some (ascii "HTTP/1.1 101 Switching Protocols") := by
      rw [List.head?_append, h.status]
      rfl
    exact ⟨hstatus, hswitched.trans h.switched, hconnection.trans h.connection,
      haccept ▸ h.accept, hprotocol ▸ h.protocol, hextensions ▸ h.extensions⟩

end Added

/-- The client reads the response of an upgrade with what the listeners of `headers` add to
it, which must not be an empty line. What the server wrote of it agrees with what the server
does on the connection, and so does all of it unless the listeners add a field of the
handshake. -/
theorem upgrade_agrees {Z : Zlib} {options : ServerOptions} {server : Server} {platform : Platform}
    {request : UpgradeRequest} {call : UpgradeCall} {context : Option (CompressionContext Z)}
    {upgrade : Upgrade Z} {added : List Bytes}
    (hserver : Server.create options = .ok server)
    (hlisteners : ∀ headers, ∃ closing,
      platform.onHeaders headers = some ((headers ++ added).map some, closing))
    (hadded : [] ∉ added)
    (h : server.handleUpgrade platform request call context = .accepted upgrade) :
    (∃ lines, readHead upgrade.response = some (lines ++ added, []) ∧
      Agreement options platform.sha1 request lines upgrade ∧
      (Agreement options platform.sha1 request (lines ++ added) upgrade ↔
        ∀ name ∈ handshakeFields, fieldValues name added = [])) ∧
    (Connection.start upgrade.settings context).session = upgrade.session ∧
    upgrade.settings.maxPayload < 2 ^ 31 := by
  obtain ⟨-, protocol, headers, hrequested, hleft, hplain, rfl⟩ := handleUpgrade_accepted.mp h
  obtain ⟨closing, hkept⟩ := hlisteners (offeredHeaders platform server request context protocol)
  rw [hkept, Option.some.injEq, Prod.mk.injEq] at hleft
  have hheaders : offeredHeaders platform server request context protocol ++ added = headers :=
    List.map_injective_iff.mpr (Option.some_injective Bytes) hleft.1
  have hagree : Agreement options platform.sha1 request
      (offeredHeaders platform server request context protocol)
      (server.upgrade platform request call context protocol headers) :=
    offeredHeaders_agree hserver hrequested headers
  refine ⟨⟨offeredHeaders platform server request context protocol, ?_, hagree,
    hagree.append_iff⟩, rfl, (Server.create_spec hserver).2⟩
  rw [hheaders]
  apply (readHead_joinHeaders_iff hplain).mpr
  rw [← hheaders]
  constructor
  · simp [offeredHeaders, responseHeaders]
  · exact List.not_mem_append (responseHeaders_nonempty _ _ _) hadded

/-- An example of a request, with a subprotocol and an offer of compression. -/
def sampleRequest : UpgradeRequest where
  method := ascii "GET"
  httpVersionMajor := some 1
  httpVersionMinor := some 1
  headers name :=
    if name = ascii "host" then .single (ascii "server.example.com")
    else if name = ascii "upgrade" then .single (ascii "websocket")
    else if name = ascii "connection" then .single (ascii "keep-alive, Upgrade")
    else if name = ascii "sec-websocket-key" then .single (ascii "dGhlIHNhbXBsZSBub25jZQ==")
    else if name = ascii "sec-websocket-version" then .single (ascii "13")
    else if name = ascii "sec-websocket-protocol" then .single (ascii "chat, superchat")
    else if name = ascii "sec-websocket-extensions" then .single (ascii "permessage-deflate")
    else .absent
  rawHeaders := some [ascii "Host", ascii "server.example.com"]

/-- The hash of the example, and a listener that sets a cookie. -/
def samplePlatform : Platform where
  parseURL _ := some { hostname := ascii "server.example.com", username := [], password := [],
                       pathname := ascii "/", search := [], hash := [] }
  sha1 _ := [0xb3, 0x7a, 0x4f, 0x2c, 0xc0, 0x62, 0x4f, 0x16, 0x90, 0xf6, 0x46, 0x06, 0xcf, 0x38,
    0x59, 0x45, 0xb2, 0xbe, 0xc4, 0xea]
  sessionFails := false
  onHeaders headers := some ((headers ++ [ascii "Set-Cookie: io=1"]).map some, false)
  maximumIOVectors := 1024
  maximumIOVectors_pos := by decide

/-- A server that compresses, by default. -/
def sampleServer : Server where
  compressEnabled := true
  compressThreshold := 1024
  nativeOptions := 7
  maxPayload := DEFAULT_PAYLOAD_LIMIT
  maxBackpressure := DEFAULT_BACKPRESSURE_LIMIT
  textAsBuffer := true

theorem sampleRequest_requested : Requested samplePlatform sampleServer sampleRequest
    { socket := some {}, callback := true } (ascii "chat") where
  opened := ⟨rfl, rfl⟩
  valid := by decide +kernel
  version := by decide +kernel
  protocol := by decide +kernel

/-- The compression context of the example. -/
def sampleContext : Option (CompressionContext Zlib.sample) := some {}

/-- The headers of the example, behind the listener. -/
def sampleHeaders : List Bytes :=
  offeredHeaders samplePlatform sampleServer sampleRequest sampleContext (ascii "chat") ++
    [ascii "Set-Cookie: io=1"]

/-- The upgrade of the example. -/
def sampleUpgrade : Upgrade Zlib.sample :=
  sampleServer.upgrade samplePlatform sampleRequest { socket := some {}, callback := true }
    sampleContext (ascii "chat") sampleHeaders

theorem sample_accepted : sampleServer.handleUpgrade samplePlatform sampleRequest
    { socket := some {}, callback := true } sampleContext = .accepted sampleUpgrade := by
  have hchecked : checkHeaders (sampleHeaders.map some) = some sampleHeaders := by decide +kernel
  apply handleUpgrade_accepted.mpr
  exact ⟨rfl, ascii "chat", sampleHeaders, sampleRequest_requested, rfl,
    (checkHeaders_iff.mp hchecked).2, rfl⟩

theorem response_exact_iff_sample : ∃ headers,
    samplePlatform.onHeaders (offeredHeaders samplePlatform sampleServer sampleRequest sampleContext
        sampleUpgrade.protocol) = some (headers.map some, false) ∧
      (readHead sampleUpgrade.response = some (headers, []) ↔ headers ≠ [] ∧ [] ∉ headers) :=
  response_exact_iff sample_accepted

/-- The example with an older version of the protocol. -/
def outdatedRequest : UpgradeRequest :=
  { sampleRequest with
    headers := fun name =>
      if name = ascii "sec-websocket-version" then .single (ascii "8")
      else sampleRequest.headers name }

/-- What is written to a client with an older version. -/
def outdatedAbort : Abort where
  code := 426
  message := ascii "Upgrade Required"
  headers := [ascii "Sec-WebSocket-Version: 13"]

theorem handleUpgrade_rejects_outdated :
    ∃ lines, readHead outdatedAbort.response = some (lines, ascii "Upgrade Required") ∧
      fieldValues (ascii "Sec-WebSocket-Version") lines = [ascii "13"] := by
  have hrejected : sampleServer.handleUpgrade samplePlatform outdatedRequest
      { socket := some {}, callback := true } sampleContext =
        .aborted outdatedAbort (some outdatedAbort.response) false false := by
    have hvalid : isValidUpgrade samplePlatform outdatedRequest
        { socket := some {}, callback := true } = true := by decide +kernel
    have hversion : headerValue (outdatedRequest.headers (ascii "sec-websocket-version")) =
        ascii "8" := by decide +kernel
    have hother : ascii "8" ≠ ascii "13" ∧ ascii "8" ≠ [] := by decide
    simp only [Server.handleUpgrade, hvalid, hversion, ne_eq, hother, not_false_eq_true, if_true]
    rfl
  obtain ⟨-, hread, -, -⟩ := handleUpgrade_rejects hrejected
  obtain ⟨lines, hlines, -, -, -, hfield⟩ := hread _ rfl
  exact ⟨lines, hlines, hfield⟩

theorem upgrade_agrees_sample :
    (∃ lines, readHead sampleUpgrade.response = some (lines ++ [ascii "Set-Cookie: io=1"], []) ∧
      Agreement { perMessageDeflate := some {} } samplePlatform.sha1 sampleRequest lines
        sampleUpgrade ∧
      (Agreement { perMessageDeflate := some {} } samplePlatform.sha1 sampleRequest
          (lines ++ [ascii "Set-Cookie: io=1"]) sampleUpgrade ↔
        ∀ name ∈ handshakeFields, fieldValues name [ascii "Set-Cookie: io=1"] = [])) ∧
    (Connection.start sampleUpgrade.settings sampleContext).session = sampleUpgrade.session ∧
    sampleUpgrade.settings.maxPayload < 2 ^ 31 :=
  upgrade_agrees rfl (fun headers => ⟨false, rfl⟩) (by decide) sample_accepted

end Agreement

end Eiows.Handshake
