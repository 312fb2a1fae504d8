import Eiows.Handshake.Request
import Eiows.Http.Head
import Eiows.Negotiation.Offers
import Eiows.WebSocket.EventLoop

/-!
# The handshake of a server

The constructor of `Server`, and how `Server.handleUpgrade` answers a request: with
`abortConnection`, or with the 101 response and the settings of the connection behind it.
A string that is written is a list of bytes in UTF-8.
-/

namespace Eiows.Handshake

/-- An option that limits something, after `Number`. -/
inductive Limit where
  | missing
  | integer (value : ℤ)
  /-- It is no integer. -/
  | malformed

/-- `options.perMessageDeflate`, where it is an object, or `true` for the empty one. -/
structure PerMessageDeflate where
  /-- `threshold`, where it is a number. -/
  threshold : Option ℤ := none
  /-- `clientNoContextTakeover !== false`. -/
  clientNoContextTakeover : Bool := true
  /-- `serverNoContextTakeover !== false`. -/
  serverNoContextTakeover : Bool := true

/-- `options`. -/
structure ServerOptions where
  perMessageDeflate : Option PerMessageDeflate := none
  maxPayload : Limit := .missing
  maxBackpressure : Limit := .missing
  /-- `textAsString === true`. -/
  textAsString : Bool := false

/-- `Server`, as far as `handleUpgrade` reads it. -/
structure Server where
  compressEnabled : Bool
  compressThreshold : ℕ
  nativeOptions : ℕ
  maxPayload : ℕ
  maxBackpressure : ℕ
  textAsBuffer : Bool
  closing : Bool := false
  closed : Bool := false

/-- `eiows.compressThreshold`. -/
def defaultCompressThreshold : ℕ := 1024

/-- `DEFAULT_PAYLOAD_LIMIT`. -/
def DEFAULT_PAYLOAD_LIMIT : ℕ := 16777216

/-- `DEFAULT_BACKPRESSURE_LIMIT`. -/
def DEFAULT_BACKPRESSURE_LIMIT : ℕ := 67108864

/-- The check of a limit. -/
def checkLimit (name : String) (default : ℕ) : Limit → Except String ℕ
  | .missing => .ok default
  | .integer value =>
    if value < 0 || 0x7fffffff < value then
      .error (name ++ " must be an integer between 0 and 2147483647")
    else .ok value.toNat
  | .malformed => .error (name ++ " must be an integer between 0 and 2147483647")

/-- The options that are handed to `createSession`. -/
def PerMessageDeflate.nativeOptions (deflate : PerMessageDeflate) : ℕ :=
  PERMESSAGE_DEFLATE |||
    (if deflate.clientNoContextTakeover then CLIENT_NO_CONTEXT_TAKEOVER else 0) |||
    (if deflate.serverNoContextTakeover then SERVER_NO_CONTEXT_TAKEOVER
      else SLIDING_DEFLATE_WINDOW)

/-- The `compressThreshold` of a server. -/
def PerMessageDeflate.compressThreshold (deflate : PerMessageDeflate) : ℕ :=
  match deflate.threshold with
  | some threshold => if 0 ≤ threshold then threshold.toNat else defaultCompressThreshold
  | none => defaultCompressThreshold

/-- The constructor of `Server`. -/
def Server.create (options : ServerOptions) : Except String Server := do
  let maxPayload ← checkLimit "maxPayload" DEFAULT_PAYLOAD_LIMIT options.maxPayload
  let maxBackpressure ←
    checkLimit "maxBackpressure" DEFAULT_BACKPRESSURE_LIMIT options.maxBackpressure
  return {
    compressEnabled := options.perMessageDeflate.isSome
    compressThreshold :=
      (options.perMessageDeflate.map (·.compressThreshold)).getD defaultCompressThreshold
    nativeOptions := (options.perMessageDeflate.map (·.nativeOptions)).getD 0
    maxPayload
    maxBackpressure
    textAsBuffer := !options.textAsString }

/-- The socket of an upgrade. -/
structure UpgradeSocket where
  destroyed : Bool := false
  /-- `write` is a function. -/
  writable : Bool := true
  /-- `attachTransport` succeeds for its handle. -/
  attachable : Bool := true
  encrypted : Bool := false

/-- What `handleUpgrade` calls. -/
structure Platform where
  /-- The constructor of `URL`. -/
  parseURL : Bytes → Option ParsedURL
  /-- `createHash('sha1')`. -/
  sha1 : Bytes → Bytes
  /-- `createSession` throws. -/
  sessionFails : Bool
  /-- The listeners of `headers`: `none` where one throws, and otherwise the items they leave,
  `none` for one that is no string, and whether one closes the server. -/
  onHeaders : List Bytes → Option (List (Option Bytes) × Bool)
  maximumIOVectors : ℕ
  maximumIOVectors_pos : 0 < maximumIOVectors

/-- The arguments of `abortConnection`. -/
structure Abort where
  code : ℕ
  message : Bytes
  headers : List Bytes := []

/-- The response of `abortConnection`. -/
def Abort.response (abort : Abort) : Bytes :=
  ascii "HTTP/1.1 " ++ decimal abort.code ++ ascii " " ++ abort.message ++ ascii "\r\n" ++
    ascii "Connection: close\r\n" ++
    (abort.headers.map (· ++ ascii "\r\n")).flatten ++
    ascii "Content-Type: text/plain; charset=utf-8\r\n" ++
    ascii "Content-Length: " ++ decimal abort.message.length ++ ascii "\r\n\r\n" ++ abort.message

/-- `abortConnection`: what it writes. -/
def abortConnection (socket : Option UpgradeSocket) (abort : Abort) : Option Bytes :=
  if (socket.map (·.destroyed)).getD true then none else some abort.response

/-- An upgrade that is accepted. -/
structure Upgrade (Z : Zlib) where
  session : StreamWebSocket Z
  extensions : Bytes
  protocol : Bytes
  response : Bytes
  settings : Settings

/-- How a call of `handleUpgrade` ends. -/
inductive Outcome (Z : Zlib) where
  /-- With `abortConnection`. The session may have to be disposed, and `error` emitted. -/
  | aborted (abort : Abort) (written : Option Bytes) (disposed : Bool) (reported : Bool)
  | accepted (upgrade : Upgrade Z)

/-- A character of Latin-1 in UTF-8. -/
def utf8Character (c : UInt8) : Bytes :=
  if c < 0x80 then [c] else [(c >>> 6) ||| 0xc0, (c &&& 0x3f) ||| 0x80]

/-- A string of Latin-1 in UTF-8. -/
def toUtf8 (s : Bytes) : Bytes := s.flatMap utf8Character

/-- The arguments of `handleUpgrade` but for the request. -/
structure UpgradeCall where
  socket : Option UpgradeSocket
  /-- `callback` is a function. -/
  callback : Bool

/-- `validUpgrade`. -/
def isValidUpgrade (platform : Platform) (request : UpgradeRequest) (call : UpgradeCall) : Bool :=
  (call.socket.map (·.writable)).getD false && call.callback &&
    request.method = ascii "GET" && isHttp11OrHigher request &&
    isValidHostHeader platform.parseURL request &&
    isValidSecWebSocketKey (request.headers (ascii "sec-websocket-key")) &&
    toLowerCase (headerValue (request.headers (ascii "upgrade"))) = ascii "websocket" &&
    hasHeaderToken (request.headers (ascii "connection")) (ascii "upgrade")

/-- `accept`. -/
def acceptKey (sha1 : Bytes → Bytes) (secKey : Bytes) : Bytes :=
  Base64.encode (sha1 (secKey ++ ascii "258EAFA5-E914-47DA-95CA-C5AB0DC85B11"))

/-- `headers`, as the listeners get it. -/
def responseHeaders (accept extensions protocol : Bytes) : List Bytes :=
  [ascii "HTTP/1.1 101 Switching Protocols", ascii "Upgrade: websocket", ascii "Connection: Upgrade",
    ascii "Sec-WebSocket-Accept: " ++ accept] ++
    (if extensions = [] then [] else [ascii "Sec-WebSocket-Extensions: " ++ extensions]) ++
    (if protocol = [] then [] else [ascii "Sec-WebSocket-Protocol: " ++ protocol])

/-- The check of `headers` behind the listeners: every item is a string without line breaks. -/
def checkHeaders : List (Option Bytes) → Option (List Bytes)
  | [] => some []
  | none :: _ => none
  | some header :: items =>
    if header.any fun c => c == 0x0d || c == 0x0a then none
    else (checkHeaders items).map (header :: ·)

/-- `headers.join('\r\n') + '\r\n\r\n'`. -/
def joinHeaders (headers : List Bytes) : Bytes :=
  (ascii "\r\n").intercalate headers ++ ascii "\r\n\r\n"

/-- What `new WebSocket` is given. -/
def Server.settings (server : Server) (platform : Platform) (socket : Option UpgradeSocket)
    (negotiator : ExtensionsNegotiator) : Settings where
  nativeTransport := (socket.map (·.attachable)).getD false
  tls := (socket.map (·.encrypted)).getD false
  textAsBuffer := server.textAsBuffer
  compressEnabled := server.compressEnabled
  compressThreshold := server.compressThreshold
  maxBackpressure := server.maxBackpressure
  maxPayload := server.maxPayload
  negotiatedOptions := negotiator.options.toNat
  serverMaxWindowBits := negotiator.serverMaxWindowBits
  maximumIOVectors := platform.maximumIOVectors
  maximumIOVectors_pos := platform.maximumIOVectors_pos

section HandleUpgrade

variable {Z : Zlib} (platform : Platform) (server : Server) (request : UpgradeRequest)
  (call : UpgradeCall) (context : Option (CompressionContext Z))

/-- The offer that `createSession` gets. -/
def extensionOffer : Bytes :=
  toUtf8 (headerValue (request.headers (ascii "sec-websocket-extensions")))

/-- The call of `createSession`. -/
def Server.createSession : StreamWebSocket Z × Bytes :=
  ExtensionsNegotiator.createSession (BitVec.ofNat 32 server.nativeOptions) server.maxPayload
    (extensionOffer request) context

/-- `secKey`. -/
def secKey : Bytes := headerValue (request.headers (ascii "sec-websocket-key"))

/-- The upgrade with this protocol, when the response has these headers. -/
def Server.upgrade (protocol : Bytes) (headers : List Bytes) : Upgrade Z where
  session := (server.createSession request context).1
  extensions := (server.createSession request context).2
  protocol
  response := joinHeaders headers
  settings := server.settings platform call.socket
    ((ExtensionsNegotiator.create (BitVec.ofNat 32 server.nativeOptions)).readOffer
      (extensionOffer request))

/-- `handleUpgrade` behind the selection of the protocol. -/
def Server.respond (protocol : Bytes) : Outcome Z :=
  let abort := fun (abort : Abort) => Outcome.aborted abort (abortConnection call.socket abort)
  let failure := { code := 500, message := ascii "Internal Server Error" }
  if platform.sessionFails then abort failure false true
  else
    let extensions := (server.createSession request context).2
    let accept := acceptKey platform.sha1 (secKey request)
    match platform.onHeaders (responseHeaders accept extensions protocol) with
    | none => abort failure true true
    | some (items, closing) =>
      match checkHeaders items with
      | none => abort failure true true
      | some headers =>
        if server.closing || server.closed || closing then
          abort { code := 503, message := ascii "Service Unavailable" } true false
        else .accepted (server.upgrade platform request call context protocol headers)

/-- `handleUpgrade`, up to the construction of the `WebSocket`. -/
def Server.handleUpgrade : Outcome Z :=
  let abort := fun (abort : Abort) =>
    Outcome.aborted abort (abortConnection call.socket abort) false false
  let version := headerValue (request.headers (ascii "sec-websocket-version"))
  if server.closing || server.closed then
    abort { code := 503, message := ascii "Service Unavailable" }
  else if !isValidUpgrade platform request call then
    abort { code := 400, message := ascii "Bad Request" }
  else if version ≠ ascii "13" then
    if version ≠ [] then
      abort { code := 426, message := ascii "Upgrade Required",
              headers := [ascii "Sec-WebSocket-Version: 13"] }
    else abort { code := 400, message := ascii "Bad Request" }
  else
    match selectProtocol (request.headers (ascii "sec-websocket-protocol")) with
    | none => abort { code := 400, message := ascii "Bad Request" }
    | some protocol => server.respond platform request call context protocol

end HandleUpgrade

end Eiows.Handshake
