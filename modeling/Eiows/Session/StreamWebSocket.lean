import Eiows.Protocol.Parser
import Eiows.Protocol.Format
import Eiows.Session.Compression

/-!
# The protocol session

`StreamWebSocket` connects the frame parser with message assembly, compression
and the closing handshake. A call of `consume` leaves the events of one chunk.
-/

namespace Eiows

/-- The bits of `enum Options`. -/
def PERMESSAGE_DEFLATE : ℕ := 1

@[inherit_doc PERMESSAGE_DEFLATE] def SERVER_NO_CONTEXT_TAKEOVER : ℕ := 2

@[inherit_doc PERMESSAGE_DEFLATE] def CLIENT_NO_CONTEXT_TAKEOVER : ℕ := 4

/-- `options & option`. -/
def hasOption (options option : ℕ) : Bool := options &&& option != 0

/-- `StreamWebSocketEvent`, with the payload of a borrowed view written out. -/
inductive Event where
  | message (payload : Bytes) (opCode : OpCode)
  | frame (data : Bytes)
  | close (code : ℕ) (reason : Bytes)
  deriving DecidableEq

/-- `CompressionStatus`. -/
inductive CompressionStatus where
  | disabled
  | enabled
  | compressedFrame
  deriving DecidableEq, Repr

/-- The members of `StreamWebSocket` besides the parser state. -/
structure Session (Z : Zlib) where
  maxPayload : ℕ
  extensionOptions : ℕ
  serverMaxWindowBits : ℕ
  compressionStatus : CompressionStatus
  fragmentBuffer : Bytes := []
  controlTipLength : ℕ := 0
  events : List Event := []
  sharedCompressionContext : Option (CompressionContext Z)
  privateCompressionContext : Option (CompressionContext Z)
  closing : Bool := false
  closeSent : Bool := false
  failureCode : ℕ := 1002

variable {Z : Zlib}

namespace Session

/-- The constructor of `StreamWebSocket`. -/
def create (negotiatedOptions serverMaxWindowBits maxPayload : ℕ)
    (compressionContext : Option (CompressionContext Z)) : Session Z :=
  if hasOption negotiatedOptions PERMESSAGE_DEFLATE then
    { maxPayload
      extensionOptions := negotiatedOptions
      serverMaxWindowBits
      compressionStatus := .enabled
      sharedCompressionContext := some (compressionContext.getD {})
      privateCompressionContext :=
        if !hasOption negotiatedOptions CLIENT_NO_CONTEXT_TAKEOVER ||
            !hasOption negotiatedOptions SERVER_NO_CONTEXT_TAKEOVER then some {}
        else none }
  else
    { maxPayload
      extensionOptions := negotiatedOptions
      serverMaxWindowBits
      compressionStatus := .disabled
      sharedCompressionContext := compressionContext
      privateCompressionContext := none }

/-- `refusePayloadLength`. -/
def refusePayloadLength (length : ℕ) (s : Session Z) : Bool × Session Z :=
  if (s.maxPayload ≠ 0 ∧ s.maxPayload < length) ∨ unsignedMax < length then
    (true, { s with failureCode := 1009 })
  else (false, s)

/-- `setCompressed`. -/
def setCompressed (s : Session Z) : Bool × Session Z :=
  if s.compressionStatus = .enabled then
    (true, { s with compressionStatus := .compressedFrame })
  else (false, s)

/-- `emitFrame`. -/
def emitFrame (data : Bytes) (s : Session Z) : Session Z :=
  { s with events := s.events ++ [.frame data] }

/-- `emitClose`. -/
def emitClose (code : ℕ) (message : Bytes) (s : Session Z) : Session Z :=
  { s with events := s.events ++ [.close code message] }

/-- `fail`. -/
def fail (code : ℕ) (s : Session Z) : Session Z :=
  if s.closing then s
  else
    let s := { s with closing := true }
    let s := if s.closeSent then s
      else { s with closeSent := true }.emitFrame (formatClose code [])
    s.emitClose 1006 []

/-- `forceClose`. -/
def forceClose (s : Session Z) : Session Z := s.fail s.failureCode

/-- `failureCode = code; fail(failureCode)`. -/
def failWith (code : ℕ) (s : Session Z) : Session Z := { s with failureCode := code }.fail code

/-- `appendFragment`. -/
def appendFragment (data : Bytes) (remainingBytes : ℕ) (s : Session Z) : Bool × Session Z :=
  let required := s.fragmentBuffer.length + data.length + remainingBytes
  if (s.maxPayload ≠ 0 ∧ s.maxPayload < required) ∨ unsignedMax < required then
    (false, s.failWith 1009)
  else (true, { s with fragmentBuffer := s.fragmentBuffer ++ data })

/-- `StreamWebSocket::inflateMessage`: the context depends on the negotiated
takeover of the client. -/
def inflateMessage (data : Bytes) (s : Session Z) : InflateResult × Bytes × Session Z :=
  let noTakeover := hasOption s.extensionOptions CLIENT_NO_CONTEXT_TAKEOVER
  match if noTakeover then s.sharedCompressionContext else s.privateCompressionContext with
  | none => (.internalError, [], s)
  | some context =>
    let r := Z.inflateMessage context.inflationStream data s.maxPayload noTakeover
    let context := { context with inflationStream := r.2.2 }
    (r.1, r.2.1,
      if noTakeover then { s with sharedCompressionContext := some context }
      else { s with privateCompressionContext := some context })

/-- `StreamWebSocket::deflateMessage`. -/
def deflateMessage (data : Bytes) (s : Session Z) : Option Bytes × Session Z :=
  let noTakeover := hasOption s.extensionOptions SERVER_NO_CONTEXT_TAKEOVER
  match if noTakeover then s.sharedCompressionContext else s.privateCompressionContext with
  | none => (none, s)
  | some context =>
    let r := Z.deflateMessage context.deflationStream data s.serverMaxWindowBits noTakeover
    let context := { context with deflationStream := r.2 }
    (r.1,
      if noTakeover then { s with sharedCompressionContext := some context }
      else { s with privateCompressionContext := some context })

/-- The text check and the MESSAGE event of `handleFragment`. -/
def emitMessage (data : Bytes) (opCode : OpCode) (s : Session Z) : Bool × Session Z :=
  if opCode = .text ∧ !isValidUtf8 data then (true, s.failWith 1007)
  else (false, { s with events := s.events ++ [.message data opCode] })

/-- The end of a data message in `handleFragment`: inflate, validate, emit. -/
def completeMessage (data : Bytes) (opCode : OpCode) (s : Session Z) : Bool × Session Z :=
  if s.compressionStatus = .compressedFrame then
    let r := { s with compressionStatus := .enabled }.inflateMessage data
    if r.1 ≠ .success then (true, r.2.2.failWith (closeCodeForInflateResult r.1))
    else r.2.2.emitMessage r.2.1 opCode
  else s.emitMessage data opCode

/-- The end of a Close frame in `handleFragment`. -/
def completeClose (payload : Bytes) (s : Session Z) : Session Z :=
  let closeFrame := parseClosePayload payload
  if closeFrame.code = 1006 then s.failWith 1002
  else
    let s := { s with closing := true }
    let s := if s.closeSent then s
      else { s with closeSent := true }.emitFrame (formatClose closeFrame.code closeFrame.message)
    s.emitClose closeFrame.code closeFrame.message

/-- The data branch of `handleFragment`. A whole unfragmented message does not
pass through the buffer. -/
def handleData (data : Bytes) (remainingBytes : ℕ) (opCode : OpCode) (fin : Bool)
    (s : Session Z) : Bool × Session Z :=
  if remainingBytes = 0 ∧ fin ∧ s.fragmentBuffer = [] then s.completeMessage data opCode
  else
    let appended := s.appendFragment data remainingBytes
    if !appended.1 then (true, appended.2)
    else if remainingBytes = 0 ∧ fin then
      let completed := appended.2.completeMessage appended.2.fragmentBuffer opCode
      if completed.1 then completed
      else (false, { completed.2 with fragmentBuffer := [] })
    else (false, appended.2)

/-- The control branch of `handleFragment`. The parts of a control frame share
the fragment buffer, on top of a message in progress. -/
def handleControl (data : Bytes) (remainingBytes : ℕ) (opCode : OpCode) (fin : Bool)
    (s : Session Z) : Bool × Session Z :=
  if remainingBytes = 0 ∧ fin ∧ s.controlTipLength = 0 then
    if opCode = .close then (true, s.completeClose data)
    else if opCode = .ping then (false, s.emitFrame (formatFrame data .pong false))
    else (false, s)
  else
    let s := { s with
      fragmentBuffer := s.fragmentBuffer ++ data
      controlTipLength := (s.controlTipLength + data.length % 256) % 256 }
    if remainingBytes = 0 ∧ fin then
      let controlBuffer := s.fragmentBuffer.drop (s.fragmentBuffer.length - s.controlTipLength)
      if opCode = .close then (true, s.completeClose controlBuffer)
      else
        let s := if opCode = .ping then s.emitFrame (formatFrame controlBuffer .pong false) else s
        (false, { s with
          fragmentBuffer := s.fragmentBuffer.take (s.fragmentBuffer.length - s.controlTipLength)
          controlTipLength := 0 })
    else (false, s)

/-- `handleFragment`. After a local Close frame, data is ignored. -/
def handleFragment (data : Bytes) (remainingBytes : ℕ) (opCode : OpCode) (fin : Bool)
    (s : Session Z) : Bool × Session Z :=
  if s.closing then (true, s)
  else if s.closeSent ∧ opCode ≠ .close ∧ opCode ≠ .ping ∧ opCode ≠ .pong then (false, s)
  else if opCode.value < 3 then s.handleData data remainingBytes opCode fin
  else s.handleControl data remainingBytes opCode fin

end Session

/-- `StreamWebSocket::protocolHooks`. -/
def protocolHooks : WebSocketProtocolHooks (Session Z) where
  refusePayloadLength := Session.refusePayloadLength
  setCompressed := Session.setCompressed
  forceClose := Session.forceClose
  handleFragment := Session.handleFragment

@[simp] theorem protocolHooks_forceClose (s : Session Z) :
    protocolHooks.forceClose s = s.forceClose := rfl

/-- `StreamWebSocket`: the parser state and the session. -/
structure StreamWebSocket (Z : Zlib) where
  parser : WebSocketState := {}
  session : Session Z

namespace StreamWebSocket

/-- A new session. -/
def create (negotiatedOptions serverMaxWindowBits maxPayload : ℕ)
    (compressionContext : Option (CompressionContext Z)) : StreamWebSocket Z where
  session := .create negotiatedOptions serverMaxWindowBits maxPayload compressionContext

/-- `releaseEvents`. -/
def releaseEvents (ws : StreamWebSocket Z) : StreamWebSocket Z :=
  { ws with session := { ws.session with events := [] } }

/-- The first lines of `consume`: no events are left, and a failure that names
no code is a protocol error. -/
def prepare (ws : StreamWebSocket Z) : StreamWebSocket Z :=
  { ws.releaseEvents with session := { ws.releaseEvents.session with failureCode := 1002 } }

/-- One call of `WebSocketProtocol::consume` on this session. -/
def feedParser (data : Bytes) (ws : StreamWebSocket Z) : StreamWebSocket Z :=
  let r := Eiows.consume protocolHooks data ws.parser ws.session
  ⟨r.1, r.2⟩

/-- The header length that `consume` computes for a header saved in `spill`. -/
def spilledHeaderLength (spill data : Bytes) : ℕ :=
  headerLengthOf ((if 2 ≤ spill.length then byteAt spill 1 else byteAt data 0) &&& 127).toNat

/-- `StreamWebSocket::consume`. A header saved in `spill` is completed first,
with no more bytes than it needs. -/
def consume (data : Bytes) (ws : StreamWebSocket Z) : StreamWebSocket Z :=
  let ws := ws.prepare
  if ws.session.closing ∨ data = [] then ws
  else if unsignedMax < data.length then { ws with session := ws.session.failWith 1009 }
  else if ws.parser.spill ≠ [] then
    let copied := min data.length
      (spilledHeaderLength ws.parser.spill data - ws.parser.spill.length)
    let ws := ws.feedParser (data.take copied)
    if !ws.session.closing ∧ copied < data.length then ws.feedParser (data.drop copied) else ws
  else ws.feedParser data

/-- The events that the last call of `consume` left. -/
def events (ws : StreamWebSocket Z) : List Event := ws.session.events

/-- `createFrame`: `none` where the source returns `false`. -/
def createFrame (data : Bytes) (opCode : OpCode) (compress : Bool) (ws : StreamWebSocket Z) :
    Option Bytes × StreamWebSocket Z :=
  if ws.session.closing ∨ ws.session.closeSent ∨ (opCode ≠ .text ∧ opCode ≠ .binary) then
    (none, ws)
  else if opCode = .text ∧ !isValidUtf8 data then (none, ws)
  else if compress ∧ ws.session.compressionStatus ≠ .disabled then
    match ws.session.deflateMessage data with
    | (none, s) => (none, { ws with session := s })
    | (some deflated, s) => (some (formatFrame deflated opCode true), { ws with session := s })
  else (some (formatFrame data opCode false), ws)

/-- `createCloseFrame`: `none` where the source returns `false`. -/
def createCloseFrame (code : ℕ) (message : Bytes) (ws : StreamWebSocket Z) :
    Option Bytes × StreamWebSocket Z :=
  if ws.session.closing ∨ ws.session.closeSent then (none, ws)
  else
    (some (formatClose code message), { ws with session := { ws.session with closeSent := true } })

/-- `isClosing`. -/
def isClosing (ws : StreamWebSocket Z) : Bool := ws.session.closing || ws.session.closeSent

end StreamWebSocket

end Eiows
