import Eiows.Interaction.Program
import Eiows.Session.StreamWebSocket
import Eiows.Transport.WriteRequest

/-!
# The state of a connection

A connection consists of the JavaScript `WebSocket`, the native transport or the
Node socket below it, and the parser session that both share. The environment
answers for the kernel, for OpenSSL, for libuv and Node, and for the code of the
application, which may call the connection from every callback.
-/

namespace Eiows

open Interaction

/-- The values of `readyState`. -/
inductive ReadyState where
  | connecting
  | opened
  | closing
  | closed
  deriving DecidableEq

/-- `WRITE_SYNCHRONOUS`, `WRITE_ASYNCHRONOUS`, `WRITE_NOT_SENT` and the error codes
of libuv that the transport returns. -/
def WRITE_SYNCHRONOUS : ℤ := 0
def WRITE_ASYNCHRONOUS : ℤ := 1
def WRITE_NOT_SENT : ℤ := 2
def UV_EIO : ℤ := -5
def UV_EBADF : ℤ := -9
def UV_EINVAL : ℤ := -22
def UV_ENOBUFS : ℤ := -105
def UV_ECANCELED : ℤ := -125

/-- The poll events of libuv. -/
def UV_READABLE : ℕ := 1
def UV_WRITABLE : ℕ := 2

def TLS_COALESCE_PREFIX : ℕ := 4 * 1024
def TLS_FULL_COALESCE_LIMIT : ℕ := 16 * 1024 + 14
def TLS_OUTPUT_BATCH_SIZE : ℕ := 64 * 1024
def TLS_PLAINTEXT_BATCH_SIZE : ℕ := 60 * 1024
def SHARED_READ_BUFFER_SIZE : ℕ := 64 * 1024
def MAX_CACHED_NATIVE_FRAME_BYTES : ℕ := 1038

/-- `NativeTransport`. The queue is the list from `writeHead_` to `writeTail_`. -/
structure NativeTransport where
  /-- `ssl_` is set, and `tlsState_` is `MEMORY_BIO`. -/
  tls : Bool
  textAsBuffer : Bool
  maxBackpressure : ℕ
  maximumIOVectors : ℕ
  /-- `session_` is set. -/
  sessionAttached : Bool := true
  /-- `descriptor_` is not negative. -/
  descriptorOpen : Bool := true
  active : Bool := false
  pollInitialized : Bool := false
  pollClosed : Bool := false
  /-- `uv_close` has been called, and its callback has not. -/
  pollClosing : Bool := false
  pollEvents : ℕ := 0
  insideCloseCallback : Bool := false
  closing : Bool := false
  destroyRequested : Bool := false
  destroyed : Bool := false
  flushingWrites : Bool := false
  reportingError : Bool := false
  pendingClose : Bool := false
  pendingCloseCode : ℕ := 1006
  pendingCloseReason : Bytes := []
  gracefulCloseRequested : Bool := false
  queue : List WriteRequest := []
  pendingBytes : ℕ := 0
  tlsCiphertext : Bytes := []
  tlsCiphertextOffset : ℕ := 0
  tlsCommittedPlaintext : ℕ := 0
  /-- The ciphertext in `nodeWriteBIO_`. -/
  nodeWriteBIO : Bytes := []
  tlsWriteBlockedOnRead : Bool := false
  tlsShutdownPending : Bool := false
  tlsShutdownGenerated : Bool := false
  tlsProcessingInput : Bool := false

/-- `WebSocket`. -/
structure WebSocket where
  nativeTransport : Bool
  textAsBuffer : Bool
  compressEnabled : Bool
  compressThreshold : ℕ
  maxBackpressure : ℕ
  /-- `external` is not `null`. -/
  external : Bool := true
  nativeActive : Bool := false
  upgradePending : Bool := true
  readyState : ReadyState := .connecting
  closed : Bool := false
  /-- `_socketError` is set. -/
  socketError : Bool := false
  closeTimer : Bool := false
  closeCode : ℕ := 1006
  closeReason : Bytes := []

/-- The Node socket of the fallback driver. -/
structure Socket where
  /-- `_transportSocket` is not `null`. -/
  present : Bool
  destroyed : Bool := false
  /-- Node has emitted `close`. -/
  closed : Bool := false
  /-- `end` has been called. -/
  ended : Bool := false
  /-- The callbacks of writes that Node has not called yet. -/
  callbacks : List WriteCallback := []

/-- What is handed to the transport. -/
inductive Outgoing where
  /-- The response to the upgrade request. -/
  | response
  /-- A message of the application, framed by the driver. -/
  | message (opCode : OpCode)
  /-- A frame list of the application. -/
  | frameList
  /-- A FRAME event of the session. -/
  | session
  /-- The result of `createCloseFrame`. -/
  | close
  deriving DecidableEq

/-- A request that was put into the queue. -/
structure Submission where
  content : Bytes
  callback : Option WriteCallback
  deriving DecidableEq

/-- A record of what has happened. Nothing in the program depends on it. -/
structure Log where
  /-- The bytes that `sendmsg` took, on TCP. -/
  kernel : Bytes := []
  /-- The bytes that `SSL_write_ex` took. -/
  plaintext : Bytes := []
  /-- The ciphertext that OpenSSL produced. -/
  ciphertext : Bytes := []
  /-- The ciphertext that `send` took. -/
  descriptor : Bytes := []
  /-- How much ciphertext there was when a number of plaintext bytes had been taken. -/
  staged : List (ℕ × ℕ) := []
  /-- The requests in the order of submission. Serial numbers count them. -/
  submitted : List Submission := []
  /-- The serial numbers of the requests taken from the queue, with their status. -/
  completions : List (ℕ × ℤ) := []
  /-- The bytes pending, and whether the transport was closing, when `submit` returned. -/
  returns : List (ℕ × Bool) := []
  /-- The frames handed to the transport. -/
  frames : List (Outgoing × Bytes) := []
  /-- The number of callbacks given to `send` and `sendFrame`. -/
  callbacks : ℕ := 0
  /-- The callbacks of calls that have not returned or handed them over. -/
  owed : List WriteCallback := []
  /-- The callbacks called or scheduled. The flag says that no error was given. -/
  fired : List (WriteCallback × Bool) := []
  /-- The callbacks of frames without bytes. -/
  empty : List WriteCallback := []
  /-- The callbacks of frames given to the Node socket in full. -/
  handed : List WriteCallback := []
  /-- The failure of a native write with a callback could not be reported: `_fail` threw. -/
  misreported : Bool := false
  /-- `readyState` became `OPEN` when the session had ended already. -/
  openedLate : Bool := false
  /-- The events dispatched by the native `consume`. -/
  dispatched : List Event := []
  /-- The transport was given up for another reason than the end of a closing handshake. -/
  disrupted : Bool := false
  /-- The number of calls of `SSL_shutdown`. -/
  shutdowns : ℕ := 0
  /-- The close timeout has been started. -/
  deadline : Bool := false

/-- The state of one connection. -/
structure Connection (Z : Zlib) where
  session : StreamWebSocket Z
  transport : NativeTransport
  webSocket : WebSocket
  socket : Socket
  log : Log := {}

/-- The result of `send` and `sendmsg` for a number of bytes. A call that is
interrupted is repeated, and only its last attempt counts. -/
inductive SendResult (length : ℕ) where
  | accepted (n : ℕ) (pos : 0 < n) (le : n ≤ length)
  | wouldBlock
  | failed

/-- The result of `SSL_write_ex`, with the ciphertext produced by the call. -/
inductive SSLWriteResult (length : ℕ) where
  | accepted (n : ℕ) (pos : 0 < n) (le : n ≤ length) (ciphertext : Bytes)
  | blocked (onRead : Bool) (ciphertext : Bytes)
  | failed (ciphertext : Bytes)

/-- The result of `recv`. -/
inductive RecvResult where
  | data (chunk : Bytes) (ne : chunk ≠ []) (le : chunk.length ≤ SHARED_READ_BUFFER_SIZE)
  | eof
  | wouldBlock
  | failed

/-- The result of `SSL_read_ex`, with the ciphertext produced by the call. With
data, the flag says whether OpenSSL or its input BIO hold more. -/
inductive SSLReadResult where
  | data (chunk : Bytes) (ne : chunk ≠ []) (le : chunk.length ≤ SHARED_READ_BUFFER_SIZE)
    (more : Bool) (ciphertext : Bytes)
  | blocked (ciphertext : Bytes)
  | zeroReturn (ciphertext : Bytes)
  | failed (ciphertext : Bytes)

/-- The occasions for code of the application to run. -/
inductive Listener where
  | message (payload : Bytes) (isBinary : Bool)
  | error
  | close (code : ℕ) (reason : Bytes)
  | writeCallback (callback : WriteCallback) (error : Bool)
  | upgrade
  /-- The `nextTick` queue and the microtasks, which Node runs after a callback. -/
  | ticks
  | uncaughtException
  /-- Any other turn of the event loop. -/
  | turn

/-- The calls that the application may make. The parts of a frame list that are
neither strings nor views are `none`. -/
inductive Action where
  | send (message : Bytes) (binary compress hasCallback : Bool)
  | sendFrame (list : List (Option Bytes)) (hasCallback : Bool)
  | close (code : Option ℕ) (reason : Bytes)
  | terminate

/-- What the application does next. -/
inductive Reply where
  | call (action : Action)
  | returned
  | threw

/-- The events of the event loop. -/
inductive LoopEvent where
  | poll (ok readable writable : Bool)
  | pollClosed
  | closeTimeout
  | turn
  | socketData (chunk : Bytes) (ne : chunk ≠ []) (lt : chunk.length < 2 ^ 31)
  | socketEnd
  | socketError
  | socketClose
  | socketWritten (index : ℕ) (error : Bool)

/-- The questions to the environment. -/
inductive Query where
  | sendmsg (data : List Bytes)
  | send (data : Bytes)
  | recv
  | pollStart (events : ℕ)
  | pollInit
  | sslWrite (data : Bytes)
  | sslRead
  | sslShutdown
  | bioRead
  | bioWrite
  /-- `socket.writable` of the Node socket, unless it has been ended or destroyed. -/
  | writable
  | writableLength
  /-- `socket.write`, which may throw. -/
  | write (data : Bytes)
  | application (listener : Listener)
  | event

/-- The answers of the environment. -/
abbrev Answer : Query → Type
  | .sendmsg data => SendResult data.flatten.length
  | .send data => SendResult data.length
  | .recv => RecvResult
  | .pollStart _ => Bool
  | .pollInit => Bool
  | .sslWrite data => SSLWriteResult data.length
  | .sslRead => SSLReadResult
  | .sslShutdown => Bool × Bytes
  | .bioRead => Bool
  | .bioWrite => Bool
  | .writable => Bool
  | .writableLength => ℕ
  | .write _ => Bool
  | .application _ => Reply
  | .event => LoopEvent

/-- The programs of a connection. -/
abbrev Run (Z : Zlib) (α : Type) := Program Query Answer (Connection Z) α

/-- The calls of native code on its owner. -/
inductive OwnerCall where
  | message (payload : Bytes) (isBinary : Bool)
  | close (code : ℕ) (reason : Bytes)
  | closed
  | backpressure
  | transportError
  | writeCallback (callback : WriteCallback) (status : ℤ)

/-- What is called from below: the owner from native code, with `false` where the
callback threw; the application from JavaScript, with `none` where it threw; and
`maybeFinishPeerClose` from `flushWrites`. The steps bound every loop. -/
structure Callees (Z : Zlib) where
  steps : ℕ
  owner : OwnerCall → Run Z Bool
  application : Listener → Run Z (Option Unit)
  maybeFinishPeerClose : Run Z Unit

section State

variable {Z : Zlib}

def transport : Run Z NativeTransport := do return (← Program.get).transport

def webSocket : Run Z WebSocket := do return (← Program.get).webSocket

def Connection.mapTransport (f : NativeTransport → NativeTransport) (c : Connection Z) :
    Connection Z :=
  { c with transport := f c.transport }

def Connection.mapWebSocket (f : WebSocket → WebSocket) (c : Connection Z) : Connection Z :=
  { c with webSocket := f c.webSocket }

def Connection.mapSocket (f : Socket → Socket) (c : Connection Z) : Connection Z :=
  { c with socket := f c.socket }

def Connection.mapLog (f : Log → Log) (c : Connection Z) : Connection Z :=
  { c with log := f c.log }

def modifyTransport (f : NativeTransport → NativeTransport) : Run Z PUnit :=
  Program.modify (Connection.mapTransport f)

def modifyWebSocket (f : WebSocket → WebSocket) : Run Z PUnit :=
  Program.modify (Connection.mapWebSocket f)

def modifySocket (f : Socket → Socket) : Run Z PUnit := Program.modify (Connection.mapSocket f)

def modifyLog (f : Log → Log) : Run Z PUnit := Program.modify (Connection.mapLog f)

/-- Ask the environment. -/
def ask (q : Query) : Run Z (Answer q) := Program.ask q

variable {C : Contract Query Answer (Connection Z)} {c : Connection Z}

@[simp] theorem meets_transport {P : NativeTransport → Connection Z → Prop} :
    (transport c).Meets C P ↔ P c.transport c := Iff.rfl

@[simp] theorem meets_webSocket {P : WebSocket → Connection Z → Prop} :
    (webSocket c).Meets C P ↔ P c.webSocket c := Iff.rfl

@[simp] theorem meets_modifyTransport {P : PUnit → Connection Z → Prop}
    {f : NativeTransport → NativeTransport} :
    (modifyTransport f c).Meets C P ↔ P ⟨⟩ (c.mapTransport f) := Iff.rfl

@[simp] theorem meets_modifyWebSocket {P : PUnit → Connection Z → Prop} {f : WebSocket → WebSocket} :
    (modifyWebSocket f c).Meets C P ↔ P ⟨⟩ (c.mapWebSocket f) := Iff.rfl

@[simp] theorem meets_modifySocket {P : PUnit → Connection Z → Prop} {f : Socket → Socket} :
    (modifySocket f c).Meets C P ↔ P ⟨⟩ (c.mapSocket f) := Iff.rfl

@[simp] theorem meets_modifyLog {P : PUnit → Connection Z → Prop} {f : Log → Log} :
    (modifyLog f c).Meets C P ↔ P ⟨⟩ (c.mapLog f) := Iff.rfl

@[simp] theorem meets_ask {q : Query} {P : Answer q → Connection Z → Prop} :
    (ask q c).Meets C P ↔ C.asks q c ∧ ∀ r, C.answers q c r → P r c := Iff.rfl

end State

end Eiows
