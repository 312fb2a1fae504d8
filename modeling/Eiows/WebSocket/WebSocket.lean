import Eiows.Transport.NativeTransport

/-!
# The JavaScript WebSocket

The methods of `WebSocket`, over the native transport and over a Node socket.
A method has the result `none` where it throws.
-/

namespace Eiows

open Interaction

/-- `isValidCloseCode`. -/
def isValidCloseCode (code : ℕ) : Bool :=
  (1000 ≤ code && code ≤ 1014 && code ≠ 1004 && code ≠ 1005 && code ≠ 1006) ||
    (3000 ≤ code && code ≤ 4999)

/-- `prepareNativeFrame`: one buffer for a short list of several parts, and the
list otherwise. `none` where a part is neither a string nor a view. -/
def prepareNativeFrame (list : List (Option Bytes)) : Option (Bytes ⊕ List (Option Bytes)) :=
  if list = [] then none
  else scan list 0
where
  /-- The loop over the parts. -/
  scan : List (Option Bytes) → ℕ → Option (Bytes ⊕ List (Option Bytes))
    | [], _ => if list.length = 1 then some (.inr list) else some (.inl (list.filterMap id).flatten)
    | none :: _, _ => none
    | some part :: rest, bytes =>
      if MAX_CACHED_NATIVE_FRAME_BYTES < bytes + part.length then some (.inr list)
      else scan rest (bytes + part.length)

namespace WebSocket

variable {Z : Zlib} (k : Callees Z)

/-- `process.nextTick(callback)`, with an error unless `ok`. -/
def schedule (callback : Option WriteCallback) (ok : Bool) : Run Z Unit :=
  modifyLog fun log => (log.fire callback ok).settle callback

def setReadyState (readyState : ReadyState) : Run Z Unit :=
  modifyWebSocket fun ws => { ws with readyState }

/-- `_startCloseTimeout`. -/
def startCloseTimeout : Run Z Unit := do
  modifyWebSocket fun ws => { ws with closeTimer := true }
  modifyLog fun log => { log with deadline := true }

/-- `_finalizeClose`. -/
def finalizeClose : Run Z (Option Unit) := do
  let ws ← webSocket
  if ws.closed then return some ()
  else
    modifyWebSocket fun ws => { ws with
      closed := true, upgradePending := false, readyState := .closed, closeTimer := false }
    if ws.external then
      if ws.nativeTransport then NativeTransport.requestDestroy k
      modifyWebSocket fun ws => { ws with external := false }
    modifyWebSocket fun ws => { ws with nativeActive := false }
    k.application (.close ws.closeCode ws.closeReason)

/-- `_abortPendingUpgrade`. -/
def abortPendingUpgrade (sendResponse : Bool) : Run Z (Option Unit) := do
  let ws ← webSocket
  if !ws.upgradePending then return some ()
  else
    setReadyState .closing
    if ws.nativeTransport && ws.external then NativeTransport.terminate k
    let socket := (← Program.get).socket
    if socket.present then
      if !socket.destroyed then
        modifySocket fun socket =>
          if sendResponse then { socket with ended := true } else { socket with destroyed := true }
      return some ()
    else
      modifyWebSocket fun ws => { ws with upgradePending := false }
      if (← webSocket).nativeActive then return some () else finalizeClose k

/-- The end of `_fail` and `terminate`: give the transport up. -/
def releaseTransport : Run Z (Option Unit) := do
  let ws ← webSocket
  if ws.nativeTransport && ws.external then
    NativeTransport.terminate k
    if !(← webSocket).nativeActive then finalizeClose k else return some ()
  else
    let socket := (← Program.get).socket
    if socket.present && !socket.destroyed then
      modifySocket fun socket => { socket with destroyed := true }
      return some ()
    else finalizeClose k

/-- Emit the first error of the connection. -/
def reportError : Run Z (Option Unit) := do
  if (← webSocket).socketError then return some ()
  else
    modifyWebSocket fun ws => { ws with socketError := true }
    k.application .error

/-- `_fail`. -/
def fail : Run Z (Option Unit) := do
  if (← webSocket).readyState = .closed then return some ()
  else
    setReadyState .closing
    match ← reportError k with
    | none => return none
    | some () =>
      if (← webSocket).upgradePending then abortPendingUpgrade k false else releaseTransport k

/-- `terminate`. -/
def terminate : Run Z (Option Unit) := do
  let ws ← webSocket
  if ws.readyState = .closed then return some ()
  else if ws.upgradePending then abortPendingUpgrade k false
  else
    setReadyState .closing
    releaseTransport k

/-- `_onNativeMessage`. -/
def onNativeMessage (payload : Bytes) (isBinary : Bool) : Run Z (Option Unit) := do
  if (← webSocket).readyState = .opened then k.application (.message payload isBinary)
  else return some ()

/-- `_onNativeClose`. -/
def onNativeClose (code : ℕ) (reason : Bytes) : Run Z (Option Unit) := do
  if (← webSocket).readyState = .closed then return some ()
  else
    modifyWebSocket fun ws =>
      { ws with closeCode := code, closeReason := reason, readyState := .closing }
    startCloseTimeout
    return some ()

/-- `_onNativeBackpressure`. -/
def onNativeBackpressure : Run Z (Option Unit) := do
  if (← webSocket).readyState ≠ .closed then setReadyState .closing
  return some ()

/-- `_onNativeTransportError`. -/
def onNativeTransportError : Run Z (Option Unit) := do
  if (← webSocket).readyState = .closed then return some ()
  else
    setReadyState .closing
    reportError k

/-- A call from native code through `makeCallback`. An exception goes to the
`uncaughtException` handlers. -/
def makeCallback (f : Run Z (Option Unit)) : Run Z Bool := do
  match ← f with
  | none =>
    let _ ← k.application .uncaughtException
    return false
  | some () =>
    match ← k.application .ticks with
    | none =>
      let _ ← k.application .uncaughtException
      return false
    | some () => return true

/-- The calls of native code on its owner. -/
def ownerCall : OwnerCall → Run Z Bool
  | .message payload isBinary => makeCallback k (onNativeMessage k payload isBinary)
  | .close code reason => makeCallback k (onNativeClose code reason)
  | .closed => makeCallback k (finalizeClose k)
  | .backpressure => makeCallback k onNativeBackpressure
  | .transportError => makeCallback k (onNativeTransportError k)
  | .writeCallback callback status =>
    makeCallback k (k.application (.writeCallback callback (status < 0)))

/-- `_finishNativeWrite`. -/
def finishNativeWrite (status : ℤ) (callback : Option WriteCallback) : Run Z (Option Bool) := do
  if 0 ≤ status then
    if status = 0 then schedule callback true
    return some true
  else
    schedule callback false
    match ← fail k with
    | none =>
      modifyLog fun log => { log with misreported := log.misreported || callback.isSome }
      return none
    | some () => return some false

/-- `_finishNativeWrite` on the result of a native call, in the `try` block of the
source. The second part is its `catch` block. -/
def tryNativeWrite (write : Run Z NativeResult) (callback : Option WriteCallback)
    (handler : Run Z (Option Bool)) : Run Z (Option Bool) := do
  match ← write with
  | .threw => handler
  | .status status =>
    match ← finishNativeWrite k status callback with
    | none => handler
    | some result => return some result

/-- A `catch` block that schedules the callback, and fails in any case. -/
def failWrite (callback : Option WriteCallback) : Run Z (Option Bool) := do
  schedule callback false
  return (← fail k).map fun _ => false

/-- The `catch` blocks of `send`, which fail only without a callback. -/
def failSend (callback : Option WriteCallback) : Run Z (Option Bool) := do
  if callback.isSome then
    schedule callback false
    return some false
  else return (← fail k).map fun _ => false

/-- Whether the Node socket can be written to. -/
def socketWritable : Run Z Bool := do
  let socket := (← Program.get).socket
  if !socket.present || socket.destroyed then return false
  else return (← ask .writable) && !socket.ended

/-- `_acceptFallbackWrite`. -/
def acceptFallbackWrite (bytes : ℕ) (callback : Option WriteCallback) : Run Z (Option Bool) := do
  let maxBackpressure := (← webSocket).maxBackpressure
  if maxBackpressure = 0 || !(← Program.get).socket.present then return some true
  else if (← ask .writableLength) + bytes ≤ maxBackpressure then return some true
  else
    schedule callback false
    return (← terminate k).map fun _ => false

/-- Write the parts of a frame to the Node socket, the last one with the callback.
The result is `false` where `write` throws. -/
def writeParts (kind : Outgoing) (frame : Bytes) (callback : Option WriteCallback) :
    List Bytes → Run Z Bool
  | [] => return true
  | [last] => do
    if !(← ask (.write last)) then return false
    else
      modifyLog fun log => { log with
        frames := log.frames ++ [(kind, frame)]
        handed := log.handed ++ callback.toList }
      modifyLog (Log.settle callback)
      modifySocket fun socket => { socket with callbacks := socket.callbacks ++ callback.toList }
      return true
  | part :: parts => do
    if !(← ask (.write part)) then return false else writeParts kind frame callback parts

/-- `_writeFrameParts` and `_writeTwoFrameParts`. -/
def writeFrameParts (kind : Outgoing) (parts : List Bytes) (callback : Option WriteCallback) :
    Run Z (Option Bool) := do
  match ← acceptFallbackWrite k parts.flatten.length callback with
  | none => return none
  | some false => return some false
  | some true =>
    if ← writeParts kind parts.flatten callback parts then return some true
    else failWrite k callback

/-- `_writeFrame`. The kind of the frame is for the log. -/
def writeFrame (kind : Outgoing) (frame : Bytes) (callback : Option WriteCallback) :
    Run Z (Option Bool) := do
  let ws ← webSocket
  if ws.nativeTransport then
    if !ws.nativeActive || !ws.external then
      schedule callback false
      return some false
    else
      tryNativeWrite k (NativeTransport.writeFrameList k kind [some frame] callback) callback
        (failWrite k callback)
  else if !(← socketWritable) then
    schedule callback false
    return some false
  else writeFrameParts k kind [frame] callback

/-- `_sendFrameList`. -/
def sendFrameList (list : List (Option Bytes)) (callback : Option WriteCallback) :
    Run Z (Option Unit) := do
  let ws ← webSocket
  if ws.readyState ≠ .opened || !ws.external then
    schedule callback false
    return some ()
  else if ws.nativeTransport then
    match prepareNativeFrame list with
    | none =>
      schedule callback false
      return some ()
    | some frame =>
      if !ws.nativeActive then
        schedule callback false
        return some ()
      else
        let write : Run Z NativeResult :=
          match frame with
          | .inl frame => NativeTransport.writeFrame k frame callback
          | .inr list => NativeTransport.writeFrameList k .frameList list callback
        return (← tryNativeWrite k write callback (failWrite k callback)).map fun _ => ()
  else if !(← socketWritable) then
    schedule callback false
    return some ()
  else if list = [] || list.any Option.isNone then
    schedule callback false
    return some ()
  else
    match list.filterMap id with
    | [frame] => return (← writeFrame k .frameList frame callback).map fun _ => ()
    | parts => return (← writeFrameParts k .frameList parts callback).map fun _ => ()

/-- `send` on the fallback driver, with compression. -/
def sendCompressed (message : Bytes) (opCode : OpCode) (callback : Option WriteCallback) :
    Run Z (Option Bool) := do
  match (← Program.get).session.createFrame message opCode true with
  | (none, session) =>
    Program.modify fun c => { c with session }
    failSend k callback
  | (some frame, session) =>
    Program.modify fun c => { c with session }
    writeFrame k (.message opCode) frame callback

/-- `send`. -/
def send (message : Bytes) (binary compressOption : Bool) (callback : Option WriteCallback) :
    Run Z (Option Unit) := do
  let ws ← webSocket
  let opCode : OpCode := if binary then .binary else .text
  let compress := ws.compressEnabled && compressOption && ws.compressThreshold ≤ message.length
  if ws.readyState ≠ .opened || !ws.external then
    schedule callback false
    return some ()
  else if ws.nativeTransport then
    let write := NativeTransport.writeMessage k message opCode compress callback
    return (← tryNativeWrite k write callback (failSend k callback)).map fun _ => ()
  else if compress then return (← sendCompressed k message opCode callback).map fun _ => ()
  else
    let header := frameHeader message.length opCode
    if message.length = 0 then
      return (← writeFrame k (.message opCode) header callback).map fun _ => ()
    else
      return (← writeFrameParts k (.message opCode) [header, message] callback).map fun _ => ()

/-- The end of `close` on the native driver. -/
def closeNative (code : ℕ) (reason : Bytes) : Run Z (Option Unit) := do
  match ← NativeTransport.writeClose k code reason with
  | .threw => fail k
  | .status status =>
    if status < 0 then NativeTransport.terminate k
    return some ()

/-- The end of `close` on the fallback driver. -/
def closeFallback (code : ℕ) (reason : Bytes) : Run Z (Option Unit) := do
  let c ← Program.get
  match c.session.createCloseFrame code reason with
  | (some frame, session) =>
    Program.modify fun c => { c with session }
    return (← writeFrame k .close frame none).map fun _ => ()
  | (none, _) =>
    if c.socket.present && !c.socket.destroyed then
      modifySocket fun socket => { socket with ended := true }
    return some ()

/-- `close`. -/
def close (code : Option ℕ) (reason : Bytes) : Run Z (Option Unit) := do
  let ws ← webSocket
  if ws.readyState = .closing || ws.readyState = .closed then return some ()
  else if ws.upgradePending then abortPendingUpgrade k true
  else if code = none && reason ≠ [] then return none
  else if code.any fun code => !isValidCloseCode code then return none
  else if 123 < reason.length || !isValidUtf8 reason then return none
  else
    setReadyState .closing
    startCloseTimeout
    if ws.nativeTransport then closeNative k (code.getD 0) reason
    else closeFallback k (code.getD 0) reason

/-- The loop of `_consume` over the events of the session, on the fallback driver. -/
def consumeEvents : List Event → Run Z (Option Unit)
  | [] => return some ()
  | event :: events => do
    let ws ← webSocket
    if ws.readyState = .closed then return some ()
    else
      match event with
      | .message payload opCode =>
        if ws.readyState = .opened then
          match ← k.application (.message payload (opCode = .binary)) with
          | none => return none
          | some () => consumeEvents events
        else consumeEvents events
      | .frame data =>
        match ← writeFrame k .session data none with
        | none => return none
        | some _ => consumeEvents events
      | .close code reason =>
        modifyWebSocket fun ws =>
          { ws with closeCode := code, closeReason := reason, readyState := .closing }
        startCloseTimeout
        modifySocket fun socket => { socket with ended := true }
        consumeEvents events

/-- Whether the addon cannot hand over an event: a text that is too long for a string. -/
def unrepresentable (textAsBuffer : Bool) : Event → Bool
  | .message payload opCode => opCode ≠ .binary && !textAsBuffer && 2 ^ 31 ≤ payload.length
  | _ => false

/-- `_consume`. -/
def consume (data : Bytes) : Run Z (Option Unit) := do
  let ws ← webSocket
  if !ws.external || ws.readyState = .closed then return some ()
  else if ws.nativeTransport then
    let _ ← NativeTransport.feed k data
    return some ()
  else
    let session := (← Program.get).session.consume data
    Program.modify fun c => { c with session := session.releaseEvents }
    if session.events.any (unrepresentable ws.textAsBuffer) then fail k
    else consumeEvents k session.events

/-- `_onSocketError`. -/
def onSocketError : Run Z (Option Unit) := do
  modifyWebSocket fun ws => { ws with socketError := true }
  k.application .error

/-- The listener of the Node socket for `end`. -/
def onSocketEnd : Run Z (Option Unit) := do
  if (← webSocket).readyState = .opened then setReadyState .closing
  if !(← Program.get).socket.destroyed then
    modifySocket fun socket => { socket with ended := true }
  return some ()

/-- The callback of the upgrade, and the bytes that came with it. -/
def upgraded (upgradeHead : Bytes) : Run Z (Option Unit) := do
  match ← k.application .upgrade with
  | none => return none
  | some () => if upgradeHead ≠ [] then consume k upgradeHead else return some ()

/-- What follows the activation of the native transport in `_completeNativeUpgrade`. -/
def openNative (transferError : Bool) (response upgradeHead : Bytes) : Run Z (Option Unit) := do
  modifyWebSocket fun ws => { ws with nativeActive := true }
  if transferError then return none
  else match ← writeFrame k .response response none with
  | none => return none
  | some false => return some ()
  | some true =>
    Program.modify fun c => { c with
      webSocket := { c.webSocket with upgradePending := false, readyState := .opened }
      log := { c.log with openedLate := c.session.isClosing } }
    upgraded k upgradeHead

/-- `activate` in `_completeNativeUpgrade`. -/
def activate (transferError : Bool) (response upgradeHead : Bytes) : Run Z (Option Unit) := do
  let status ← NativeTransport.activate k
  if status < 0 then fail k
  else
    match ← openNative k transferError response upgradeHead with
    | none => fail k
    | some () => return some ()

/-- The end of `handleUpgrade` on the fallback driver, once the response has been written. -/
def openFallback (upgradeHead : Bytes) : Run Z (Option Unit) := do
  modifyWebSocket fun ws => { ws with upgradePending := false, readyState := .opened }
  match ← upgraded k upgradeHead with
  | none => do
    let _ ← terminate k
    return none
  | some () => return some ()

end WebSocket

end Eiows
