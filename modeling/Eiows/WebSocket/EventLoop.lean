import Eiows.WebSocket.WebSocket

/-!
# The event loop

A run of a connection starts when its transport is taken over, and goes on turn
by turn. The application may call the connection whenever its code runs, also
from inside of the calls that the connection makes.
-/

namespace Eiows

open Interaction

variable {Z : Zlib}

/-- A callback given to `send` or `sendFrame`. -/
def newCallback (hasCallback : Bool) : Run Z (Option WriteCallback) := do
  if hasCallback then
    let callback := (← Program.get).log.callbacks
    modifyLog fun log => { log with callbacks := callback + 1, owed := callback :: log.owed }
    return some callback
  else return none

/-- A call of the application. It deals with exceptions on its own. -/
def perform (k : Callees Z) : Action → Run Z Unit
  | .send message binary compress hasCallback => do
    let callback ← newCallback hasCallback
    let _ ← WebSocket.send k message binary compress callback
  | .sendFrame list hasCallback => do
    let callback ← newCallback hasCallback
    let _ ← WebSocket.sendFrameList k list callback
  | .close code reason => do let _ ← WebSocket.close k code reason
  | .terminate => do let _ ← WebSocket.terminate k

/-- Code of the application: any calls, until it returns or throws. -/
def application (k : Callees Z) (listener : Listener) : Run Z (Option Unit) :=
  Program.iterate (fun _ => do
    match ← ask (.application listener) with
    | .call action =>
      perform k action
      return .inr ()
    | .returned => return .inl (some ())
    | .threw => return .inl none) k.steps ()

/-- The callees at each depth of calls. -/
def callees (Z : Zlib) : ℕ → Callees Z
  | 0 => ⟨0, fun _ => Program.stop, fun _ => Program.stop, Program.stop⟩
  | n + 1 =>
    ⟨n + 1, WebSocket.ownerCall (callees Z n), application (callees Z n),
      NativeTransport.maybeFinishPeerClose (callees Z n)⟩

/-- A callback of Node into JavaScript. -/
def nodeCallback (k : Callees Z) (f : Run Z (Option Unit)) : Run Z Unit := do
  let _ ← WebSocket.makeCallback k f

/-- The close deadline has passed. -/
def onCloseTimeout (k : Callees Z) : Run Z (Option Unit) := do
  let c ← Program.get
  modifyWebSocket fun ws => { ws with closeTimer := false }
  if c.webSocket.nativeTransport && c.webSocket.external then NativeTransport.terminate k
  else if c.socket.present && !c.socket.destroyed then
    modifySocket fun socket => { socket with destroyed := true }
  return some ()

/-- Node reports the end of a write to its socket. -/
def onSocketWritten (k : Callees Z) (index : ℕ) (error : Bool) : Run Z Unit := do
  match (← Program.get).socket.callbacks[index]? with
  | none => return ()
  | some callback =>
    modifySocket fun socket => { socket with callbacks := socket.callbacks.eraseIdx index }
    modifyLog (Log.fire (some callback) !error)
    nodeCallback k (k.application (.writeCallback callback error))

/-- One turn of the event loop. Events that are not awaited are left out. Node
reports the end of every write before it closes its socket. -/
def turn (k : Callees Z) : Run Z Unit := do
  let event ← ask .event
  let c ← Program.get
  match event with
  | .poll ok readable writable =>
    if c.transport.active && !c.transport.destroyed then
      NativeTransport.poll k ok readable writable
  | .pollClosed => if c.transport.pollClosing then NativeTransport.onPollClosed k
  | .closeTimeout => if c.webSocket.closeTimer then nodeCallback k (onCloseTimeout k)
  | .turn => nodeCallback k (k.application .turn)
  | .socketData chunk _ _ => if c.socket.present then nodeCallback k (WebSocket.consume k chunk)
  | .socketEnd => if c.socket.present then nodeCallback k WebSocket.onSocketEnd
  | .socketError => if c.socket.present then nodeCallback k (WebSocket.onSocketError k)
  | .socketClose =>
    if c.socket.present && c.socket.callbacks = [] then
      modifySocket fun socket => { socket with destroyed := true, closed := true }
      nodeCallback k (WebSocket.finalizeClose k)
  | .socketWritten index error => onSocketWritten k index error

/-- What a connection is created with. -/
structure Settings where
  nativeTransport : Bool
  tls : Bool
  textAsBuffer : Bool
  compressEnabled : Bool
  compressThreshold : ℕ
  maxBackpressure : ℕ
  maxPayload : ℕ
  negotiatedOptions : ℕ
  serverMaxWindowBits : ℕ
  maximumIOVectors : ℕ
  maximumIOVectors_pos : 0 < maximumIOVectors

/-- How the takeover of a connection goes. -/
structure Takeover where
  transferError : Bool
  response : Bytes
  upgradeHead : Bytes
  upgradeHead_lt : upgradeHead.length < 2 ^ 31

/-- A connection before the takeover. -/
def Connection.start (settings : Settings) (compressionContext : Option (CompressionContext Z)) :
    Connection Z where
  session := StreamWebSocket.create settings.negotiatedOptions settings.serverMaxWindowBits
    settings.maxPayload compressionContext
  transport :=
    { tls := settings.tls, textAsBuffer := settings.textAsBuffer
      maxBackpressure := settings.maxBackpressure
      maximumIOVectors := settings.maximumIOVectors }
  webSocket :=
    { nativeTransport := settings.nativeTransport, textAsBuffer := settings.textAsBuffer
      compressEnabled := settings.compressEnabled
      compressThreshold := settings.compressThreshold
      maxBackpressure := settings.maxBackpressure }
  socket := { present := !settings.nativeTransport }

/-- The takeover, and the turns after it. -/
def run (k : Callees Z) (takeover : Takeover) : Run Z Empty := do
  if (← webSocket).nativeTransport then
    nodeCallback k (WebSocket.activate k takeover.transferError takeover.response
      takeover.upgradeHead)
  else nodeCallback k (WebSocket.openFallback k takeover.upgradeHead)
  Program.iterate (fun _ => do
    turn k
    return .inr ()) k.steps ()

/-- The environment is not restricted. -/
def anyAnswers : (q : Query) → Connection Z → Answer q → Prop := fun _ _ _ => True

/-- The states in which a run asks its environment. -/
def Reachable (settings : Settings) (compressionContext : Option (CompressionContext Z))
    (takeover : Takeover) (q : Query) (c : Connection Z) : Prop :=
  ∃ n, (run (callees Z n) takeover (Connection.start settings compressionContext)).Reaches
    ⟨fun _ _ => True, anyAnswers⟩ q c

end Eiows
