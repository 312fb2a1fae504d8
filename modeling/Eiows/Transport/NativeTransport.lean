import Eiows.Transport.Connection

/-!
# The native transport

The functions of `NativeTransport`, which drives the descriptor of a connection
itself. Failures of N-API calls, of allocations and the teardown of the
environment are left out.
-/

namespace Eiows

open Interaction

/-- The result of a native function that JavaScript calls: a status, or an exception. -/
inductive NativeResult where
  | status (status : ℤ)
  | threw

namespace NativeTransport

/-- `hasTLSOutput`. -/
def hasTLSOutput (t : NativeTransport) : Bool :=
  t.tlsCiphertextOffset < t.tlsCiphertext.length || t.nodeWriteBIO ≠ []

/-- `writable`. -/
def writable (t : NativeTransport) : Bool := !t.closing && t.sessionAttached && t.descriptorOpen

/-- `backpressureExceeded`. -/
def backpressureExceeded (t : NativeTransport) : Bool :=
  t.maxBackpressure ≠ 0 && t.maxBackpressure < t.pendingBytes

/-- The events to poll for. -/
def pollInterest (t : NativeTransport) : ℕ :=
  let writable := (t.queue ≠ [] && (!t.tls || !t.tlsWriteBlockedOnRead)) || t.tlsShutdownPending ||
    (t.tls && t.hasTLSOutput)
  if writable then UV_READABLE ||| UV_WRITABLE else UV_READABLE

/-- Change the request at the head of the queue. -/
def modifyHead (f : WriteRequest → WriteRequest) (t : NativeTransport) : NativeTransport :=
  { t with queue := t.queue.modifyHead f }

/-- `enqueueWrite`, with the bytes counted as pending. -/
def enqueueWrite (request : WriteRequest) (t : NativeTransport) : NativeTransport :=
  { t with queue := t.queue ++ [request], pendingBytes := t.pendingBytes + request.bytes }

/-- `dequeueWrite`. -/
def dequeueWrite (t : NativeTransport) : NativeTransport := { t with queue := t.queue.tail }

/-- `defer` the request with the given serial number. -/
def deferRequest (serial : ℕ) (t : NativeTransport) : NativeTransport :=
  { t with queue := t.queue.map fun r => if r.serial = serial then r.defer else r }

end NativeTransport

/-- A callback has been handed over, or called, or scheduled. -/
def Log.settle (callback : Option WriteCallback) (log : Log) : Log :=
  { log with owed := callback.elim log.owed log.owed.erase }

/-- A callback has been called or scheduled. -/
def Log.fire (callback : Option WriteCallback) (ok : Bool) (log : Log) : Log :=
  { log with fired := log.fired ++ (callback.map (·, ok)).toList }

namespace NativeTransport

variable {Z : Zlib} (k : Callees Z)

/-- `sendRaw`. -/
def sendRaw (data : Bytes) : Run Z (SendResult data.length) := do
  let result ← ask (.send data)
  match result with
  | .accepted n _ _ =>
    modifyLog fun log => { log with descriptor := log.descriptor ++ data.take n }
    return result
  | _ => return result

/-- OpenSSL has written ciphertext to `nodeWriteBIO_`. -/
def produce (ciphertext : Bytes) : Run Z Unit := do
  modifyTransport fun t => { t with nodeWriteBIO := t.nodeWriteBIO ++ ciphertext }
  modifyLog fun log => { log with ciphertext := log.ciphertext ++ ciphertext }

/-- `invokeWriteCallback`. -/
def invokeWriteCallback (request : WriteRequest) (status : ℤ) : Run Z Unit :=
  match request.callback with
  | none => return ()
  | some callback => do
    modifyLog (Log.fire (some callback) (0 ≤ status))
    let _ ← k.owner (.writeCallback callback status)

/-- `completeHeadWrite`. -/
def completeHeadWrite (status : ℤ) : Run Z Unit := do
  match (← transport).queue with
  | [] => return ()
  | request :: _ =>
    modifyTransport dequeueWrite
    modifyLog fun log => { log with completions := log.completions ++ [(request.serial, status)] }
    if request.deferred then invokeWriteCallback k request status

/-- `cancelWrites`. -/
def cancelWrites (status : ℤ) : Run Z Unit :=
  Program.iterate (fun _ => do
    match (← transport).queue with
    | [] => return .inl ()
    | request :: _ =>
      modifyTransport dequeueWrite
      modifyTransport fun t =>
        { t with pendingBytes := t.pendingBytes - min t.pendingBytes request.remainingBytes }
      modifyLog fun log =>
        { log with completions := log.completions ++ [(request.serial, status)] }
      if request.deferred then invokeWriteCallback k request status
      return .inr ()) k.steps ()

/-- `closeNow`. -/
def closeNow (writeStatus : ℤ) : Run Z Unit := do
  if (← transport).closing then return ()
  else
    modifyTransport fun t => { t with closing := true }
    cancelWrites k writeStatus
    modifyTransport fun t => { t with
      tlsCiphertext := []
      tlsCiphertextOffset := 0
      tlsCommittedPlaintext := 0
      pollEvents := 0
      descriptorOpen := false
      pollClosing := t.pollInitialized
      pollClosed := t.pollClosed || !t.pollInitialized }

/-- `closeNow`, where no closing handshake has led to it. -/
def closeDisrupted (writeStatus : ℤ) : Run Z Unit := do
  modifyLog fun log => { log with disrupted := true }
  closeNow k writeStatus

/-- `reportTransportError`. -/
def reportTransportError : Run Z Unit := do
  if (← transport).reportingError then return ()
  else
    modifyTransport fun t => { t with reportingError := true }
    let _ ← k.owner .transportError
    modifyTransport fun t => { t with reportingError := false }

/-- `fail`. -/
def fail : Run Z Unit := do
  if (← transport).closing then return ()
  else
    reportTransportError k
    closeDisrupted k UV_ECANCELED

/-- `terminateForBackpressure`. -/
def terminateForBackpressure : Run Z Unit := do
  if (← transport).closing then return ()
  else
    let _ ← k.owner .backpressure
    closeDisrupted k UV_ENOBUFS

/-- `updatePoll`. -/
def updatePoll : Run Z Unit := do
  let t ← transport
  if !t.active || t.closing then return ()
  else
    let events := t.pollInterest
    if events = t.pollEvents then return ()
    else if ← ask (.pollStart events) then
      modifyTransport fun t => { t with pollEvents := events }
    else fail k

/-- One pass of the loop of `flushMemoryBIOOutput` that drains `nodeWriteBIO_`. -/
def drainOutput : Run Z (Bool ⊕ Unit) := do
  let t ← transport
  if t.nodeWriteBIO = [] then return .inl true
  else
    let batch := t.nodeWriteBIO.take TLS_OUTPUT_BATCH_SIZE
    modifyTransport fun t => { t with nodeWriteBIO := t.nodeWriteBIO.drop TLS_OUTPUT_BATCH_SIZE }
    if !(← ask .bioRead) then
      fail k
      return .inl false
    else
      match ← sendRaw batch with
      | .accepted n _ _ =>
        if n = batch.length then return .inr ()
        else
          modifyTransport fun t => { t with tlsCiphertext := batch.drop n, tlsCiphertextOffset := 0 }
          return .inl true
      | .wouldBlock =>
        modifyTransport fun t => { t with tlsCiphertext := batch, tlsCiphertextOffset := 0 }
        return .inl true
      | .failed =>
        fail k
        return .inl false

/-- The first part of `flushMemoryBIOOutput`: send the ciphertext kept from an
earlier call. The result is `none` once all of it has been sent. -/
def flushCiphertext : Run Z (Option Bool) := do
  let t ← transport
  if t.tlsCiphertextOffset < t.tlsCiphertext.length then
    match ← sendRaw (t.tlsCiphertext.drop t.tlsCiphertextOffset) with
    | .accepted n _ _ =>
      if t.tlsCiphertextOffset + n = t.tlsCiphertext.length then
        modifyTransport fun t => { t with tlsCiphertext := [], tlsCiphertextOffset := 0 }
        return none
      else
        modifyTransport fun t => { t with tlsCiphertextOffset := t.tlsCiphertextOffset + n }
        return some true
    | .wouldBlock => return some true
    | .failed =>
      fail k
      return some false
  else return none

/-- `flushMemoryBIOOutput`. -/
def flushMemoryBIOOutput : Run Z Bool := do
  match ← flushCiphertext k with
  | some result => return result
  | none => Program.iterate (fun _ => drainOutput k) k.steps ()

/-- `writeTCP`. -/
def writeTCP (request : WriteRequest) : Run Z ℤ := do
  let data := request.remainingIovecs (← transport).maximumIOVectors
  match ← ask (.sendmsg data) with
  | .accepted n _ _ =>
    modifyLog fun log => { log with kernel := log.kernel ++ data.flatten.take n }
    return n
  | .wouldBlock => return 0
  | .failed => return -1

/-- One pass of the loop of `writeTLS`, which fills OpenSSL with plaintext of the
request at the head. The result is `false` where `SSL_write_ex` fails. -/
def stagePlaintext (batchRemaining : ℕ) : Run Z (Bool ⊕ ℕ) := do
  let t ← transport
  match t.queue with
  | [] => return .inl true
  | request :: _ =>
    if request.unstagedBytes t.tlsCommittedPlaintext = 0 ∨ batchRemaining = 0 then
      return .inl true
    else
      let batch := request.remainingData.take batchRemaining
      match ← ask (.sslWrite batch) with
      | .accepted n _ _ ciphertext =>
        produce ciphertext
        modifyLog fun log => { log with
          plaintext := log.plaintext ++ batch.take n
          staged := log.staged ++ [(log.plaintext.length + n, log.ciphertext.length)] }
        modifyTransport (modifyHead (·.stageTLS n))
        modifyTransport fun t => { t with
          tlsWriteBlockedOnRead := false
          tlsCommittedPlaintext := t.tlsCommittedPlaintext + n }
        return .inr (batchRemaining - n)
      | .blocked onRead ciphertext =>
        produce ciphertext
        modifyTransport fun t => { t with tlsWriteBlockedOnRead := onRead }
        return .inl true
      | .failed ciphertext =>
        produce ciphertext
        return .inl false

/-- The plaintext staged in OpenSSL counts as written once its ciphertext has been sent. -/
def commitPlaintext : Run Z ℤ := do
  if !(← flushMemoryBIOOutput k) then return -1
  else
    let t ← transport
    if t.hasTLSOutput then return 0
    else
      modifyTransport fun t => { t with tlsCommittedPlaintext := 0 }
      return t.tlsCommittedPlaintext

/-- `writeTLS`. -/
def writeTLS : Run Z ℤ := do
  if (← transport).tlsCommittedPlaintext ≠ 0 then commitPlaintext k
  else if !(← Program.iterate stagePlaintext k.steps TLS_PLAINTEXT_BATCH_SIZE) then return -1
  else if (← transport).tlsCommittedPlaintext = 0 then
    if !(← flushMemoryBIOOutput k) then return -1 else return 0
  else commitPlaintext k

/-- What the loop of `flushWrites` does with the result of a write. The result is
`false` where the transport has failed. -/
def accountWrite (tls : Bool) (written : ℤ) : Run Z (Bool ⊕ Unit) := do
  if 0 < written then
    let length := written.toNat
    modifyTransport (modifyHead fun r => if tls then r.commitTLS length else r.advance length)
    modifyTransport fun t => { t with pendingBytes := t.pendingBytes - min t.pendingBytes length }
    if ((← transport).queue.head?.map (·.remainingBytes)) = some 0 then
      completeHeadWrite k 0
    return .inr ()
  else if written = 0 then return .inl true
  else
    modifyTransport fun t => { t with flushingWrites := false }
    fail k
    return .inl false

/-- One pass of the loop of `flushWrites`. -/
def flushHead : Run Z (Bool ⊕ Unit) := do
  let t ← transport
  match t.queue with
  | [] => return .inl true
  | request :: _ =>
    if t.closing then return .inl true
    else if t.tls then accountWrite k true (← writeTLS k)
    else accountWrite k false (← writeTCP request)

/-- The loop of `flushWrites`, and what follows it. -/
def flushQueue : Run Z Unit := do
  modifyTransport fun t => { t with flushingWrites := true }
  if ← Program.iterate (fun _ => flushHead k) k.steps () then
    modifyTransport fun t => { t with flushingWrites := false }
    if (← transport).queue = [] then k.maybeFinishPeerClose

/-- `flushWrites`. -/
def flushWrites : Run Z Unit := do
  let t ← transport
  if t.flushingWrites || t.closing || !t.active then return ()
  else if t.tls then
    if !(← flushMemoryBIOOutput k) then return ()
    else if (← transport).hasTLSOutput then return ()
    else flushQueue k
  else flushQueue k

/-- The rewriting of a request for TLS in `submit`. -/
def coalesce (request : WriteRequest) : Option WriteRequest :=
  if 1 < request.parts.length then
    if request.bytes ≤ TLS_FULL_COALESCE_LIMIT then request.flatten
    else request.coalescePrefix TLS_COALESCE_PREFIX
  else some request

/-- The part of `submit` that puts a request into the queue. The record has the bytes that
were submitted, before the request was rewritten. -/
def enqueue (kind : Outgoing) (content : Bytes) (request : WriteRequest) : Run Z Unit := do
  modifyTransport (enqueueWrite request)
  modifyLog fun log => { log with
    submitted := log.submitted ++ [⟨content, request.callback⟩]
    frames := log.frames ++ [(kind, content)] }

/-- The end of `submit` for a request that other writes are waiting before. -/
def submitQueued : Run Z ℤ := do
  if (← transport).backpressureExceeded then
    terminateForBackpressure k
    return WRITE_ASYNCHRONOUS
  else
    updatePoll k
    return WRITE_ASYNCHRONOUS

/-- The end of `submit` for a request that is written at once, as far as possible. -/
def submitFirst (request : WriteRequest) : Run Z ℤ := do
  flushWrites k
  let t ← transport
  if t.closing then return UV_EIO
  else if t.queue.any (·.serial = request.serial) then
    modifyTransport (deferRequest request.serial)
    modifyLog (Log.settle request.callback)
    if (← transport).backpressureExceeded then terminateForBackpressure k
    if (← transport).closing then return WRITE_ASYNCHRONOUS
    else
      updatePoll k
      return WRITE_ASYNCHRONOUS
  else return WRITE_SYNCHRONOUS

/-- The part of `submit` behind its checks. -/
def submitPrepared (kind : Outgoing) (content : Bytes) (request : WriteRequest) : Run Z ℤ := do
  let t ← transport
  if t.queue ≠ [] || t.flushingWrites then
    enqueue kind content request.defer
    modifyLog (Log.settle request.callback)
    submitQueued k
  else
    enqueue kind content request
    submitFirst k request

/-- `submit`. The kind of the request is for the log. -/
def submit (kind : Outgoing) (request : WriteRequest) : Run Z NativeResult := do
  let c ← Program.get
  let t := c.transport
  if !t.writable then return .status UV_EBADF
  else
    match request.prepare with
    | none => if request.parts = [] then return .status UV_EINVAL else return .threw
    | some prepared =>
      if prepared.bytes = 0 then
        modifyLog fun log => { log with empty := log.empty ++ prepared.callback.toList }
        return .status WRITE_SYNCHRONOUS
      else if sizeMax - prepared.bytes < t.pendingBytes then return .threw
      else
        match if t.tls then coalesce prepared else some prepared with
        | none => return .threw
        | some rewritten =>
          let status ← submitPrepared k kind request.content
            { rewritten with serial := c.log.submitted.length }
          let t ← transport
          modifyLog fun log => { log with returns := log.returns ++ [(t.pendingBytes, t.closing)] }
          return .status status

/-- `writeOwned`. -/
def writeOwned (kind : Outgoing) (data : Bytes) : Run Z NativeResult :=
  submit k kind (WriteRequest.addPart data {})

/-- `writeMessage`. -/
def writeMessage (input : Bytes) (opCode : OpCode) (compress : Bool) (callback : Option WriteCallback) :
    Run Z NativeResult := do
  let c ← Program.get
  let request : WriteRequest := { callback }
  if !c.transport.writable then return .status UV_EBADF
  else if compress && !c.session.isClosing then
    match c.session.createFrame input opCode true with
    | (none, session) =>
      Program.modify fun c => { c with session }
      return .threw
    | (some frame, session) =>
      Program.modify fun c => { c with session }
      submit k (.message opCode) (request.addPart frame)
  else if opCode = .text then
    match request.addSmallTextFrame input opCode with
    | (request, true) => submit k (.message opCode) request
    | (request, false) =>
      submit k (.message opCode) (request.prependOwned (frameHeader input.length opCode))
  else
    submit k (.message opCode)
      ((request.addPart input).prependOwned (frameHeader input.length opCode))

/-- `writeFrameList`, for a list with at least one part. -/
def writeFrameList (kind : Outgoing) (list : List (Option Bytes)) (callback : Option WriteCallback) :
    Run Z NativeResult := do
  if !(← transport).writable then return .status UV_EBADF
  else if list = [] then return .threw
  else if list.any Option.isNone then return .threw
  else submit k kind { parts := list.filterMap id, callback }

/-- `writeFrame`. -/
def writeFrame (frame : Bytes) (callback : Option WriteCallback) : Run Z NativeResult := do
  if !(← transport).writable then return .status UV_EBADF
  else submit k .frameList { parts := [frame], callback }

/-- `writeClose`. -/
def writeClose (code : ℕ) (reason : Bytes) : Run Z NativeResult := do
  let c ← Program.get
  if !c.transport.writable then return .status UV_EBADF
  else
    match c.session.createCloseFrame code reason with
    | (none, _) => return .status WRITE_NOT_SENT
    | (some frame, session) =>
      Program.modify fun c => { c with session }
      writeOwned k .close frame

/-- `dispatchMessage`. A text message that is too long for a string is not dispatched. -/
def dispatchMessage (payload : Bytes) (opCode : OpCode) : Run Z Bool := do
  let t ← transport
  if opCode ≠ .binary && !t.textAsBuffer && 2 ^ 31 ≤ payload.length then return false
  else
    modifyLog fun log => { log with dispatched := log.dispatched ++ [.message payload opCode] }
    k.owner (.message payload (opCode = .binary))

/-- The loop of `consume` over the events of the session. -/
def dispatchEvents : List Event → Run Z Bool
  | [] => return !(← transport).closing
  | event :: events => do
    let t ← transport
    if !t.sessionAttached || t.closing then return false
    else
      match event with
      | .frame data =>
        modifyLog fun log => { log with dispatched := log.dispatched ++ [event] }
        match ← writeOwned k .session data with
        | .status status =>
          if status < 0 then
            fail k
            return false
          else dispatchEvents events
        | .threw =>
          fail k
          return false
      | .message payload opCode =>
        if ← dispatchMessage k payload opCode then dispatchEvents events else return false
      | .close code reason =>
        modifyLog fun log => { log with dispatched := log.dispatched ++ [event] }
        modifyTransport fun t =>
          { t with pendingClose := true, pendingCloseCode := code, pendingCloseReason := reason }
        k.maybeFinishPeerClose
        dispatchEvents events

/-- `consume`. -/
def consume (data : Bytes) : Run Z Bool := do
  let session := (← Program.get).session.consume data
  Program.modify fun c => { c with session }
  let result ← dispatchEvents k session.events
  Program.modify fun c => { c with session := c.session.releaseEvents }
  return result

/-- One pass of the loop of `processMemoryBIO`. -/
def readPlaintext : Run Z (Bool ⊕ Unit) := do
  if (← transport).closing then return .inl true
  else
    match ← ask .sslRead with
    | .data chunk _ _ more ciphertext =>
      produce ciphertext
      if !(← consume k chunk) then return .inl false
      else if more then return .inr ()
      else return .inl true
    | .blocked ciphertext =>
      produce ciphertext
      return .inl true
    | .zeroReturn ciphertext =>
      produce ciphertext
      closeDisrupted k UV_ECANCELED
      return .inl false
    | .failed ciphertext =>
      produce ciphertext
      fail k
      return .inl false

/-- `processMemoryBIO`. -/
def processMemoryBIO : Run Z Bool := do
  let t ← transport
  if !t.tls || t.closing then return !t.closing
  else if t.tlsProcessingInput then flushMemoryBIOOutput k
  else
    modifyTransport fun t => { t with tlsProcessingInput := true }
    let result ←
      if ← Program.iterate (fun _ => readPlaintext k) k.steps () then flushMemoryBIOOutput k
      else pure false
    modifyTransport fun t => { t with tlsProcessingInput := false }
    return result

/-- The end of `performTLSShutdown`. -/
def finishTLSShutdown : Run Z Unit := do
  modifyTransport fun t => { t with tlsShutdownPending := false }
  closeNow k UV_ECANCELED

/-- `performTLSShutdown`. -/
def performTLSShutdown : Run Z Unit := do
  let t ← transport
  if !t.gracefulCloseRequested || t.closing || t.queue ≠ [] then return ()
  else if !t.tls then closeNow k UV_ECANCELED
  else if t.tlsShutdownGenerated then
    if !(← flushMemoryBIOOutput k) then return ()
    else if (← transport).hasTLSOutput then
      modifyTransport fun t => { t with tlsShutdownPending := true }
    else finishTLSShutdown k
  else if !(← processMemoryBIO k) then
    modifyTransport fun t => { t with tlsShutdownPending := true }
  else if (← transport).hasTLSOutput then
    modifyTransport fun t => { t with tlsShutdownPending := true }
  else
    let (ok, ciphertext) ← ask .sslShutdown
    produce ciphertext
    modifyLog fun log => { log with shutdowns := log.shutdowns + 1 }
    if ok then
      modifyTransport fun t => { t with tlsShutdownGenerated := true }
      if !(← flushMemoryBIOOutput k) then return ()
      else if (← transport).hasTLSOutput then
        modifyTransport fun t => { t with tlsShutdownPending := true }
      else finishTLSShutdown k
    else
      modifyLog fun log => { log with disrupted := true }
      finishTLSShutdown k

/-- `maybeFinishPeerClose`. -/
def maybeFinishPeerClose : Run Z Unit := do
  let t ← transport
  if t.closing then return ()
  else if t.pendingClose then
    modifyTransport fun t => { t with pendingClose := false }
    if ← k.owner (.close t.pendingCloseCode t.pendingCloseReason) then
      modifyTransport fun t => { t with gracefulCloseRequested := true }
      performTLSShutdown k
  else if t.gracefulCloseRequested then performTLSShutdown k

/-- `readTCP`. -/
def readTCP : Run Z Unit := do
  match ← ask .recv with
  | .data chunk _ _ => let _ ← consume k chunk
  | .eof => closeDisrupted k UV_ECANCELED
  | .wouldBlock => return ()
  | .failed => fail k

/-- `readTLSMemoryBIO`. -/
def readTLSMemoryBIO : Run Z Unit := do
  if (← transport).closing then return ()
  else
    match ← ask .recv with
    | .data _ _ _ =>
      if ← ask .bioWrite then let _ ← processMemoryBIO k else fail k
    | .eof => closeDisrupted k UV_ECANCELED
    | .wouldBlock => let _ ← processMemoryBIO k
    | .failed => fail k

/-- The reading part of `poll`. -/
def pollReadable : Run Z Unit := do
  let t ← transport
  modifyTransport fun t => { t with tlsWriteBlockedOnRead := false }
  if t.tls then readTLSMemoryBIO k else readTCP k
  if !(← transport).closing && t.tlsWriteBlockedOnRead then flushWrites k

/-- `if (tls) processMemoryBIO()`. -/
def processInput : Run Z Unit := do
  if (← transport).tls then let _ ← processMemoryBIO k

/-- `if (!closing_) flushWrites()`. -/
def flushUnlessClosing : Run Z Unit := do
  if !(← transport).closing then flushWrites k

/-- `if (!closing_ && tlsShutdownPending_) performTLSShutdown()`. -/
def continueTLSShutdown : Run Z Unit := do
  let t ← transport
  if !t.closing && t.tlsShutdownPending then performTLSShutdown k

/-- The writing part of `poll`. -/
def pollWritable : Run Z Unit := do
  if (← transport).tlsShutdownPending then performTLSShutdown k else pure ()
  if (← transport).closing then return ()
  else
    processInput k
    flushUnlessClosing k
    continueTLSShutdown k

/-- `poll`. -/
def poll (ok readable writable : Bool) : Run Z Unit := do
  if (← transport).closing then return ()
  else if !ok then fail k
  else
    if readable then pollReadable k
    if !(← transport).closing && writable then pollWritable k
    if !(← transport).closing then updatePoll k

/-- The destructor, as far as it can be observed. -/
def destroy : Run Z Unit := do
  cancelWrites k UV_ECANCELED
  modifyTransport fun t => { t with destroyed := true, descriptorOpen := false }

/-- `onPollClosed`. -/
def onPollClosed : Run Z Unit := do
  modifyTransport fun t =>
    { t with pollClosing := false, pollClosed := true, insideCloseCallback := true }
  let _ ← k.owner .closed
  modifyTransport fun t => { t with insideCloseCallback := false }
  if (← transport).destroyRequested then destroy k

/-- `terminate`. -/
def terminate : Run Z Unit := do
  if !(← transport).closing then closeDisrupted k UV_ECANCELED

/-- `requestDestroy`. -/
def requestDestroy : Run Z Unit := do
  modifyTransport fun t => { t with destroyRequested := true, sessionAttached := false }
  if !(← transport).active then destroy k
  else
    terminate k
    let t ← transport
    if t.pollClosed && !t.insideCloseCallback then destroy k

/-- `activate`, with the result `UV_EINVAL` where libuv cannot poll the descriptor. -/
def activate : Run Z ℤ := do
  let t ← transport
  if t.active || t.closing then return UV_EINVAL
  else if !(← ask .pollInit) then return UV_EINVAL
  else
    modifyTransport fun t => { t with pollInitialized := true, active := true }
    let processed ← if t.tls then processMemoryBIO k else pure true
    if !processed then return UV_EIO
    else
      flushWrites k
      updatePoll k
      if (← transport).closing then return UV_EIO else return 0

/-- `feed`. -/
def feed (data : Bytes) : Run Z Bool := do
  let t ← transport
  if !t.sessionAttached || t.closing then return false else consume k data

end NativeTransport

end Eiows
