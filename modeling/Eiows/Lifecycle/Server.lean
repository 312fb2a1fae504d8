import Eiows.Transition.System
import Eiows.Transport.Connection
import Mathlib.Logic.Function.Basic

/-!
# A server and its clients

`Server.handleUpgrade`, `Server.close` and the methods of `WebSocket` that open and close
a connection. Listeners, callbacks and native calls run in the middle of these functions
and can call any of them again: the functions that have not returned are the frames of a
stack. An exception leaves the function on top of the stack; where the function below
does not catch it, it can leave that one too.
-/

namespace Eiows.Lifecycle

/-- Where a function goes on when what it called returns. -/
inductive Frame (W K : Type) where
  /-- `handleUpgrade`, in the listeners of `headers`. -/
  | headers (w : W)
  /-- `handleUpgrade`, in `socket.write(response)`. -/
  | response (w : W)
  /-- `handleUpgrade`, in the callback or after it. -/
  | accepted (w : W)
  /-- `activate`, in `activateTransport`. -/
  | activation (w : W)
  /-- `activate`, in the native write of the response. -/
  | writing (w : W)
  /-- `activate`, in the callback or after it. -/
  | activated (w : W)
  /-- A native method, in the listeners of the `error` of `_onNativeTransportError`. -/
  | reporting (w : W)
  /-- `_fail`, in the listeners of `error`. -/
  | failing (w : W)
  /-- `_fail` or `terminate`, in `terminateTransport`. -/
  | releasing (w : W)
  /-- `close`, in `writeTransportClose`. -/
  | replying (w : W)
  /-- `_finalizeClose`, after `_server._remove`. -/
  | removing (w : W)
  /-- `_finishClose`, with the listeners of `close` that have still to be called. -/
  | notifying (callbacks : List K)
  /-- `Server.close`, with the clients that it has still to close. -/
  | sweeping (clients : List W)
  /-- A listener or callback, after which its caller has nothing left to do. -/
  | listening
  deriving DecidableEq

/-- Listeners and callbacks run below this frame. -/
def Frame.runsUserCode {W K : Type} : Frame W K → Bool
  | .headers _ | .response _ | .accepted _ | .activated _ | .reporting _ | .failing _
  | .replying _ | .listening => true
  | .activation _ | .writing _ | .releasing _ | .removing _ | .notifying _ | .sweeping _ => false

/-- A call of `handleUpgrade`, the `WebSocket` it makes, and its native transport. -/
structure Client where
  /-- `attachTransport` succeeds for the socket. -/
  attachable : Bool := false
  encrypted : Bool := false
  /-- The length of the 101 response. -/
  response : ℕ := 0
  /-- `createSession` has returned a session. -/
  session : Bool := false
  /-- The session has not been disposed. -/
  external : Bool := false
  /-- `new WebSocket` has returned. -/
  accepted : Bool := false
  readyState : ReadyState := .connecting
  upgradePending : Bool := false
  nativeTransport : Bool := false
  nativeActive : Bool := false
  closed : Bool := false
  socketError : Bool := false
  closeTimer : Bool := false
  /-- `_server` is not null. -/
  server : Bool := false
  /-- `_transportSocket` is not null. -/
  transportSocket : Bool := false
  socketDestroyed : Bool := false
  /-- The socket has emitted `close`. -/
  socketClosed : Bool := false
  transferError : Bool := false
  destroyScheduled : Bool := false
  activationScheduled : Bool := false
  transportActive : Bool := false
  transportClosing : Bool := false
  /-- libuv has called `onPollClosed`. -/
  transportClosed : Bool := false
  pendingBytes : ℕ := 0
  /-- `uv_poll_start` has failed in the native write of the response. -/
  pollFailed : Bool := false
  /-- How often the session has been disposed, and `close` emitted. -/
  disposals : ℕ := 0
  closeEvents : ℕ := 0
  /-- How often the callback of the upgrade has been called. -/
  upgradeCalls : ℕ := 0
  /-- The callback was called with another `readyState` than OPEN, or on a closing transport. -/
  miscalled : Bool := false
  /-- `readyState` has gone back. -/
  backwards : Bool := false
  /-- `readyState` has left CLOSED. -/
  reopened : Bool := false

/-- The order CONNECTING, OPEN, CLOSING, CLOSED. -/
def rank : ReadyState → ℕ
  | .connecting => 0
  | .opened => 1
  | .closing => 2
  | .closed => 3

/-- Assign `readyState`. -/
def Client.setReadyState (readyState : ReadyState) (c : Client) : Client :=
  { c with
    readyState
    backwards := c.backwards || rank readyState < rank c.readyState
    reopened := c.reopened || (c.readyState = .closed && readyState ≠ .closed) }

/-- The end of an upgrade: OPEN, and the callback. -/
def Client.opened (c : Client) : Client :=
  let c := { c with upgradePending := false }.setReadyState .opened
  { c with
    upgradeCalls := c.upgradeCalls + 1
    miscalled :=
      c.miscalled || c.readyState ≠ .opened || (c.nativeTransport && c.transportClosing) }

/-- What `process.nextTick` runs. -/
inductive Tick (K : Type) where
  | finishClose
  | call (callback : K)
  deriving DecidableEq

/-- A server, the calls of its `handleUpgrade`, and the functions that have not returned. -/
structure Server (W K : Type) where
  maxBackpressure : ℕ
  closing : Bool := false
  closed : Bool := false
  clients : List W := []
  client : W → Client := fun _ => {}
  /-- The callbacks that wait for the event `close` of the server. -/
  listeners : List K := []
  ticks : List (Tick K) := []
  stack : List (Frame W K) := []
  closeEvents : ℕ := 0
  /-- The callbacks that `Server.close` has been given. -/
  given : List K := []
  /-- The callbacks that have been called. -/
  called : List K := []
  /-- The server emitted `close`, or called a callback, while it had a client. -/
  early : Bool := false
  /-- A client was added after `Server.close`. -/
  late : Bool := false

/-- What happens next. -/
inductive Event (W K : Type) where
  /-- `handleUpgrade`, of a request that is found valid, up to the event `headers`. -/
  | upgrade (w : W) (attachable encrypted : Bool) (response : ℕ)
  /-- `handleUpgrade`, where `createSession` throws. -/
  | refuse
  /-- What the function on top of the stack called returns. -/
  | ret
  /-- It throws. -/
  | throw
  /-- A native method returns a negative status. -/
  | failed
  /-- The write of the response leaves some bytes in the queue of the transport. -/
  | wrote (pending : ℕ)
  /-- It does, and `uv_poll_start` fails for them. -/
  | pollFails (pending : ℕ)
  | socketClosed (w : W)
  | socketErrors (w : W)
  | socketEnds (w : W)
  /-- The callback of the first `setImmediate` of `_completeNativeUpgrade`. -/
  | destroyLater (w : W)
  /-- The callback of the second one. -/
  | activateLater (w : W)
  /-- A peer's Close frame is dispatched. -/
  | peerClose (w : W)
  | transportError (w : W)
  /-- The native transport closes itself. -/
  | transportEnds (w : W)
  | backpressure (w : W)
  /-- The native transport queues its own frames, or flushes. -/
  | progress (w : W) (pending : ℕ)
  | nativeClosed (w : W)
  | close (w : W) (valid : Bool)
  | terminate (w : W)
  | fail (w : W)
  | closeTimeout (w : W)
  | serverClose (callback : Option K)
  | tick

namespace Server

variable {W K : Type} [DecidableEq W]

/-- Assign fields of a client. -/
def set (w : W) (f : Client → Client) (s : Server W K) : Server W K :=
  { s with client := Function.update s.client w (f (s.client w)) }

omit [DecidableEq W] in
/-- A function calls out. -/
def push (frame : Frame W K) (s : Server W K) : Server W K :=
  { s with stack := frame :: s.stack }

omit [DecidableEq W] in
/-- `_finishClose`. -/
def finishClose (s : Server W K) : Server W K :=
  if s.closed then s
  else
    { s with
      closed := true
      closeEvents := s.closeEvents + 1
      early := s.early || !s.clients.isEmpty
      listeners := []
      stack := .notifying s.listeners :: s.stack }

/-- `_remove`. -/
def remove (w : W) (s : Server W K) : Server W K :=
  let s := { s with clients := s.clients.filter (· ≠ w) }
  if s.closing && s.clients.isEmpty then s.finishClose else s

/-- `_finalizeClose`. The queue of the transport is empty when its session is disposed. -/
def finalizeClose (w : W) (s : Server W K) : Server W K :=
  let c := s.client w
  if c.closed then s
  else
    let s := s.set w fun c => { c.setReadyState .closed with
      closed := true
      upgradePending := false
      closeTimer := false
      disposals := c.disposals + c.external.toNat
      external := false
      transportClosing := c.transportClosing || c.nativeTransport
      nativeActive := false
      server := false }
    let s := s.push (.removing w)
    if c.server then s.remove w else s

/-- `closeNow`. Only what a user has written has callbacks. -/
def closeNow (w : W) (s : Server W K) : Server W K :=
  let c := s.client w
  if c.transportClosing then s
  else
    let s := s.set w fun c => { c with transportClosing := true, pendingBytes := 0 }
    if 0 < c.upgradeCalls then s.push .listening else s

/-- `_abortPendingUpgrade`. -/
def abortPendingUpgrade (sendResponse : Bool) (w : W) (s : Server W K) : Server W K :=
  if !(s.client w).upgradePending then s
  else
    let s := s.set w fun c => c.setReadyState .closing
    let s :=
      if (s.client w).nativeTransport && (s.client w).external then s.closeNow w else s
    if (s.client w).transportSocket then
      s.set w fun c => { c with socketDestroyed := c.socketDestroyed || !sendResponse }
    else
      let s := s.set w fun c => { c with upgradePending := false }
      if (s.client w).nativeActive then s else s.finalizeClose w

/-- The end of `_fail` and `terminate`. -/
def release (w : W) (s : Server W K) : Server W K :=
  let c := s.client w
  if c.nativeTransport && c.external then (s.push (.releasing w)).closeNow w
  else if c.transportSocket && !c.socketDestroyed then
    s.set w fun c => { c with socketDestroyed := true }
  else s.finalizeClose w

/-- `_fail`, after the event `error`. -/
def continueFail (w : W) (s : Server W K) : Server W K :=
  if (s.client w).upgradePending then s.abortPendingUpgrade false w else s.release w

/-- `_fail`. -/
def fail (w : W) (s : Server W K) : Server W K :=
  if (s.client w).readyState = .closed then s
  else
    let s := s.set w fun c => c.setReadyState .closing
    if (s.client w).socketError then s.continueFail w
    else (s.set w fun c => { c with socketError := true }).push (.failing w)

/-- `terminate`. -/
def terminate (w : W) (s : Server W K) : Server W K :=
  if (s.client w).readyState = .closed then s
  else if (s.client w).upgradePending then s.abortPendingUpgrade false w
  else (s.set w fun c => c.setReadyState .closing).release w

/-- `close`; `valid` says that the arguments pass its checks. -/
def close (w : W) (valid : Bool) (s : Server W K) : Server W K :=
  let c := s.client w
  if c.readyState = .closing || c.readyState = .closed then s
  else if c.upgradePending then s.abortPendingUpgrade true w
  else if !valid then s
  else
    let s := s.set w fun c => { c.setReadyState .closing with closeTimer := true }
    if c.nativeTransport then s.push (.replying w) else s.push .listening

/-- `activate` of `_completeNativeUpgrade`, up to `activateTransport`. -/
def activate (w : W) (s : Server W K) : Server W K :=
  let c := s.client w
  if !c.external || !c.upgradePending || c.readyState ≠ .connecting then
    (s.set w fun c => { c with upgradePending := false }).finalizeClose w
  else (s.set w fun c => { c with transportActive := true }).push (.activation w)

/-- `handleUpgrade`, from the check after the event `headers` on. -/
def accept (w : W) (s : Server W K) : Server W K :=
  if s.closing || s.closed then
    s.set w fun c => { c with external := false, disposals := c.disposals + 1 }
  else
    let c := s.client w
    let s := s.set w fun c => { c with
      accepted := true
      nativeTransport := c.attachable
      server := true
      transportSocket := true
      upgradePending := true
      readyState := .connecting
      destroyScheduled := c.attachable }
    let s := { s with clients := s.clients ++ [w], late := s.late || s.closing || s.closed }
    if c.attachable then s else s.push (.response w)

/-- The native write of the response, when the transport is not closing after the flush. -/
def wrote (w : W) (pending : ℕ) (s : Server W K) : Server W K :=
  let s := s.set w fun c => { c with pendingBytes := pending }
  let s :=
    if s.maxBackpressure ≠ 0 && s.maxBackpressure < pending then
      -- `terminateForBackpressure`; the status is WRITE_ASYNCHRONOUS all the same
      (s.set w fun c =>
        if c.readyState ≠ .closed then c.setReadyState .closing else c).closeNow w
    else s
  (s.set w Client.opened).push (.activated w)

/-- `fail` of the transport, up to the listeners of `error`. -/
def failTransport (w : W) (s : Server W K) : Server W K :=
  if (s.client w).readyState = .closed then s.closeNow w
  else
    let s := s.set w fun c => c.setReadyState .closing
    if (s.client w).socketError then s.closeNow w
    else (s.set w fun c => { c with socketError := true }).push (.reporting w)

omit [DecidableEq W] in
/-- `Server.close`, what it does with its callback. -/
def listen (callback : Option K) (s : Server W K) : Server W K :=
  match callback with
  | none => s
  | some k =>
    if s.closed then { s with given := k :: s.given, ticks := s.ticks ++ [.call k] }
    else { s with given := k :: s.given, listeners := s.listeners ++ [k] }

omit [DecidableEq W] in
/-- `Server.close`. -/
def serverClose (callback : Option K) (s : Server W K) : Server W K :=
  let s := s.listen callback
  if s.closing || s.closed then s
  else { s with closing := true }.push (.sweeping s.clients)

/-- The function on top of the stack goes on. -/
def resume (frame : Frame W K) (s : Server W K) : Option (Server W K) :=
  match frame with
  | .headers w => some (s.accept w)
  | .response w =>
    if !(s.client w).upgradePending || (s.client w).readyState ≠ .connecting then some s
    else some ((s.set w Client.opened).push (.accepted w))
  | .accepted _ => some s
  | .activation w =>
    if (s.client w).transportClosing then none
    else
      let s := s.set w fun c => { c with nativeActive := true }
      if (s.client w).transferError then some (s.fail w) else some (s.push (.writing w))
  | .writing w =>
    -- `updatePoll` has closed the transport; the status is WRITE_ASYNCHRONOUS all the same
    if (s.client w).pollFailed then some ((s.set w Client.opened).push (.activated w)) else none
  | .activated _ => some s
  | .reporting w => some (s.closeNow w)
  | .failing w => some (s.continueFail w)
  | .releasing w => if (s.client w).nativeActive then some s else some (s.finalizeClose w)
  | .replying _ => some s
  | .removing w =>
    some ((s.set w fun c => { c with closeEvents := c.closeEvents + 1 }).push .listening)
  | .notifying [] => some s
  | .notifying (callback :: rest) =>
    some (({ s with
      called := callback :: s.called
      early := s.early || !s.clients.isEmpty }.push (.notifying rest)).push .listening)
  | .sweeping [] =>
    if s.clients.isEmpty then some { s with ticks := s.ticks ++ [.finishClose] } else some s
  | .sweeping (w :: rest) => some ((s.push (.sweeping rest)).close w true)
  | .listening => some s

/-- An exception reaches the function on top of the stack. The listeners of `close` do not
throw. -/
def catchException (frame : Frame W K) (s : Server W K) : Option (Server W K) :=
  match frame with
  | .headers w =>
    some ((s.set w fun c => { c with external := false, disposals := c.disposals + 1 }).push
      .listening)
  | .response w | .accepted w => some (s.terminate w)
  | .activated w | .replying w => some (s.fail w)
  | .reporting w => some (s.closeNow w)
  | .failing _ | .sweeping _ | .listening => some s
  | .activation _ | .writing _ | .releasing _ | .removing _ | .notifying _ => none

/-- The native method on top of the stack returns a negative status. -/
def failed (frame : Frame W K) (s : Server W K) : Option (Server W K) :=
  match frame with
  | .activation w => some (s.fail w)
  | .writing w => if (s.client w).pollFailed then none else some (s.fail w)
  | .replying w => some (s.closeNow w)
  | _ => none

omit [DecidableEq W] in
/-- Listeners and callbacks, or the event loop, can make a call. -/
def userRuns (s : Server W K) : Bool :=
  match s.stack with
  | [] => true
  | frame :: _ => frame.runsUserCode

/-- The native transport of a client can be at work. -/
def nativeRuns (w : W) (s : Server W K) : Bool :=
  (s.client w).transportActive && !(s.client w).transportClosing &&
    match s.stack with
    | .activation a :: _ => a = w
    | .writing a :: _ => a = w
    | _ => s.userRuns

/-- A client that a call can be about. -/
def callable (w : W) (s : Server W K) : Bool :=
  s.userRuns && (s.client w).accepted

variable [DecidableEq K]

/-- One event. -/
def next (s : Server W K) : Event W K → Option (Server W K)
  | .upgrade w attachable encrypted response =>
    if !s.userRuns || (s.client w).session then none
    else if s.closing || s.closed then some s
    else
      some ((s.set w fun c =>
        { c with attachable, encrypted, response, session := true, external := true }).push
          (.headers w))
  | .refuse => if s.userRuns then some (s.push .listening) else none
  | .ret =>
    match s.stack with
    | [] => none
    | frame :: stack => { s with stack }.resume frame
  | .throw =>
    match s.stack with
    | [] => none
    | frame :: stack => { s with stack }.catchException frame
  | .failed =>
    match s.stack with
    | [] => none
    | frame :: stack => { s with stack }.failed frame
  | .wrote pending =>
    match s.stack with
    | .writing w :: stack =>
      if (s.client w).transportClosing ||
          (s.client w).pendingBytes + (s.client w).response < pending then none
      else some ({ s with stack }.wrote w pending)
    | _ => none
  | .pollFails pending =>
    match s.stack with
    | .writing w :: _ =>
      if (s.client w).transportClosing || pending = 0 ||
          (s.client w).pendingBytes + (s.client w).response < pending ||
          (s.maxBackpressure ≠ 0 && s.maxBackpressure < pending) then none
      else
        some ((s.set w fun c => { c with pendingBytes := pending, pollFailed := true }).failTransport
          w)
    | _ => none
  | .socketClosed w =>
    if !s.callable w || (s.client w).socketClosed then none
    else
      let c := s.client w
      let s := s.set w fun c => { c with socketClosed := true }
      if !c.nativeTransport then some (s.finalizeClose w)
      else
        let s := s.set w fun c => { c with transportSocket := false }
        if !c.upgradePending || c.readyState ≠ .connecting then
          some ((s.set w fun c => { c with upgradePending := false }).finalizeClose w)
        else if c.encrypted then
          some (s.set w fun c => { c with activationScheduled := true })
        else some (s.activate w)
  | .socketErrors w =>
    if !s.callable w then none
    else if (s.client w).nativeTransport then
      if (s.client w).socketClosed then none
      else some (s.set w fun c => { c with transferError := true })
    else some ((s.set w fun c => { c with socketError := true }).push .listening)
  | .socketEnds w =>
    if !s.callable w || (s.client w).nativeTransport then none
    else
      some (s.set w fun c => if c.readyState = .opened then c.setReadyState .closing else c)
  | .destroyLater w =>
    if s.stack = [] && (s.client w).destroyScheduled then
      let s := s.set w fun c => { c with destroyScheduled := false }
      let c := s.client w
      if c.upgradePending && c.readyState = .connecting && c.transportSocket then
        some (s.set w fun c => { c with socketDestroyed := true })
      else some s
    else none
  | .activateLater w =>
    if s.stack = [] && (s.client w).activationScheduled then
      some ((s.set w fun c => { c with activationScheduled := false }).activate w)
    else none
  | .peerClose w =>
    if (s.client w).nativeTransport then
      -- while the transport is activated or written to, only TLS input is consumed
      if s.nativeRuns w && (s.stack.head? ≠ some (.activation w) || (s.client w).encrypted) &&
          s.stack.head? ≠ some (.writing w) then
        some (s.set w fun c =>
          if c.readyState = .closed then c
          else { c.setReadyState .closing with closeTimer := true })
      else none
    else if s.callable w then
      some (s.set w fun c =>
        if c.readyState = .closed then c
        else { c.setReadyState .closing with closeTimer := true })
    else none
  | .transportError w =>
    if s.nativeRuns w then some (s.failTransport w) else none
  | .transportEnds w => if s.nativeRuns w then some (s.closeNow w) else none
  | .backpressure w =>
    if s.nativeRuns w && s.maxBackpressure ≠ 0 && s.stack.head? ≠ some (.writing w) then
      some ((s.set w fun c =>
        if c.readyState ≠ .closed then c.setReadyState .closing else c).closeNow w)
    else none
  | .progress w pending =>
    if s.nativeRuns w && s.stack.head? ≠ some (.writing w) &&
        (s.maxBackpressure = 0 || pending ≤ s.maxBackpressure) then
      some (s.set w fun c => { c with pendingBytes := pending })
    else none
  | .nativeClosed w =>
    if s.stack = [] && (s.client w).transportActive && (s.client w).transportClosing &&
        !(s.client w).transportClosed then
      some ((s.set w fun c => { c with transportClosed := true }).finalizeClose w)
    else none
  | .close w valid => if s.callable w then some (s.close w valid) else none
  | .terminate w => if s.callable w then some (s.terminate w) else none
  | .fail w => if s.callable w then some (s.fail w) else none
  | .closeTimeout w =>
    if s.stack = [] && (s.client w).closeTimer then
      let c := s.client w
      if c.nativeTransport && c.external then some (s.closeNow w)
      else if c.transportSocket && !c.socketDestroyed then
        some (s.set w fun c => { c with socketDestroyed := true })
      else some s
    else none
  | .serverClose callback =>
    if !s.userRuns || callback.any (· ∈ s.given) then none else some (s.serverClose callback)
  | .tick =>
    if s.stack = [] then
      match s.ticks with
      | [] => none
      | .finishClose :: ticks => some { s with ticks }.finishClose
      | .call k :: ticks =>
        some ({ s with
          ticks
          called := k :: s.called
          early := s.early || !s.clients.isEmpty }.push .listening)
    else none

end Server

end Eiows.Lifecycle
