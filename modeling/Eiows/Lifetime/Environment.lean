import Eiows.Intrusive.LinkedList
import Eiows.Transition.System
import Mathlib.Data.Finset.Card
import Mathlib.Data.Finset.Insert

/-!
# Native transports and their environment

Who owns a `NativeTransport`, and when it is deleted. Deleted objects are gone from the
state, and an access to one of them is a fault. Native methods of a transport call into
JavaScript, which can call other methods before the first one goes on: the methods that
have not returned are the frames of a stack.
-/

namespace Eiows.Lifetime

open Intrusive

/-- What libuv knows about `poll_`. -/
inductive PollHandle where
  | uninitialized
  | opened
  /-- `uv_close` has been called. -/
  | closing
  /-- The close callback has been called. -/
  | closed
  deriving DecidableEq

/-- The fields of a `NativeTransport` that decide when it is deleted. -/
structure TransportObject (S : Type) where
  active : Bool := false
  closing : Bool := false
  pollInitialized : Bool := false
  pollClosed : Bool := false
  insideCloseCallback : Bool := false
  destroyRequested : Bool := false
  environmentCleaning : Bool := false
  environmentRegistered : Bool := false
  /-- `environment_` is not null. -/
  environment : Bool := true
  poll : PollHandle := .uninitialized
  /-- The session whose handle `storage_` points into. -/
  storage : Option S := none

/-- `NativeEnvironment`; its `head` is with the links. -/
structure NativeEnvironment where
  cleaning : Bool := false
  cleanupHook : Bool := true

/-- Native methods that can be on the stack while JavaScript runs. -/
inductive Frame (T : Type) where
  /-- `activate`, `poll`, `feed` or one of the writers. -/
  | method (t : T)
  /-- `closeNow`, in `cancelWrites`. -/
  | cancelWrites (t : T)
  /-- `requestDestroy`, in `closeNow`. -/
  | requestDestroy (t : T)
  /-- `onPollClosed`, in `_onNativeClosed`. -/
  | closeCallback (t : T)
  deriving DecidableEq

/-- The transport whose method a frame is. -/
def Frame.transport {T : Type} : Frame T → T
  | .method t => t
  | .cancelWrites t => t
  | .requestDestroy t => t
  | .closeCallback t => t

/-- The transports, the handles of the sessions, the environment and the stack. -/
structure Runtime (S T : Type) where
  transports : T → Option (TransportObject S) := fun _ => none
  links : Links T := {}
  environment : Option NativeEnvironment := some {}
  /-- The handle of a session, and `handle->transport` in it. -/
  handles : S → Option (Option T) := fun _ => some none
  stack : List (Frame T) := []
  /-- The transports that have been allocated. -/
  created : Finset T := ∅
  /-- How often a transport has been deleted. -/
  deletions : T → ℕ := fun _ => 0
  /-- How often the environment has been released. -/
  released : ℕ := 0
  cleanupBegun : Bool := false
  /-- A deleted object was used, or an object deleted too early. -/
  fault : Bool := false

/-- What happens next: a call of JavaScript, or of libuv, or a step of a native method. -/
inductive Event (S T : Type) where
  /-- `attachTransport`, which allocates a transport; it can turn out not to be valid. -/
  | attach (session : S) (t : T) (valid : Bool)
  /-- `activateTransport`, which can fail before the poll handle is initialized. -/
  | activate (session : S) (initialized : Bool)
  | terminate (session : S)
  | dispose (session : S)
  | finalize (session : S)
  /-- `feedTransport` or one of the writers. -/
  | operate (session : S)
  /-- The poll callback. -/
  | poll (t : T)
  /-- The native method on the stack closes the transport. -/
  | close
  /-- The native method on the stack goes on after the call into JavaScript, or returns. -/
  | resume
  /-- The close callback of the poll handle. -/
  | pollClosed (t : T)
  /-- The cleanup hook of the environment. -/
  | cleanup

namespace Runtime

variable {S T : Type} [DecidableEq S] [DecidableEq T]

omit [DecidableEq S] [DecidableEq T] in
/-- A deleted object is used. -/
def fail (s : Runtime S T) : Runtime S T :=
  { s with fault := true }

omit [DecidableEq S] [DecidableEq T] in
/-- Go on with the fields of a transport. -/
def read (t : T) (s : Runtime S T) (k : TransportObject S → Runtime S T) : Runtime S T :=
  match s.transports t with
  | none => s.fail
  | some o => k o

/-- Assign fields of a transport. -/
def assign (t : T) (f : TransportObject S → TransportObject S) (s : Runtime S T) : Runtime S T :=
  s.read t fun o => { s with transports := Function.update s.transports t (some (f o)) }

omit [DecidableEq S] [DecidableEq T] in
/-- A neighbour in the list is used. -/
def touch (t : Option T) (s : Runtime S T) : Runtime S T :=
  match t with
  | none => s
  | some t => s.read t fun _ => s

omit [DecidableEq S] [DecidableEq T] in
/-- The environment is used. -/
def touchEnvironment (s : Runtime S T) : Runtime S T :=
  match s.environment with
  | none => s.fail
  | some _ => s

/-- `linkEnvironment`. -/
def linkEnvironment (t : T) (s : Runtime S T) : Runtime S T :=
  s.read t fun o =>
    if !o.environment then s
    else
      let s := (s.touchEnvironment).touch s.links.head
      { s with links := s.links.pushFront t }.assign t fun o =>
        { o with environmentRegistered := true }

/-- `unlinkEnvironment`. -/
def unlinkEnvironment (t : T) (s : Runtime S T) : Runtime S T :=
  s.read t fun o =>
    if !o.environmentRegistered || !o.environment then s
    else
      let s := ((s.touchEnvironment).touch (s.links.previous t)).touch (s.links.next t)
      { s with links := s.links.unlink t }.assign t fun o =>
        { o with environmentRegistered := false }

/-- `delete`, with the destructor. No write is queued when a transport is deleted. -/
def delete (t : T) (s : Runtime S T) : Runtime S T :=
  let s := s.unlinkEnvironment t
  s.read t fun o =>
    let s :=
      { s with
        transports := Function.update s.transports t none
        deletions := Function.update s.deletions t (s.deletions t + 1) }
    if o.pollInitialized && o.poll ≠ .closed then s.fail else s

/-- `closeNow`, from `uv_poll_stop` on. -/
def closePoll (t : T) (s : Runtime S T) : Runtime S T :=
  s.assign t fun o =>
    if o.pollInitialized && o.poll = .opened then { o with poll := .closing }
    else { o with pollClosed := true }

/-- `closeNow`. Only the writes of an active transport have callbacks, and they are not
called when the environment is cleaned. -/
def closeNow (t : T) (s : Runtime S T) : Runtime S T :=
  s.read t fun o =>
    if o.closing then s
    else
      let s := s.assign t fun o => { o with closing := true }
      if o.active && !o.environmentCleaning then { s with stack := .cancelWrites t :: s.stack }
      else s.closePoll t

/-- The end of `requestDestroy`. -/
def deleteIfClosed (t : T) (s : Runtime S T) : Runtime S T :=
  s.read t fun o => if o.pollClosed && !o.insideCloseCallback then s.delete t else s

/-- `requestDestroy`. -/
def requestDestroy (t : T) (s : Runtime S T) : Runtime S T :=
  let s := s.assign t fun o => { o with destroyRequested := true }
  s.read t fun o =>
    if !o.active then s.delete t
    else if !o.closing then { s with stack := .requestDestroy t :: s.stack }.closeNow t
    else s.deleteIfClosed t

/-- `completeNativeEnvironmentCleanup`. -/
def completeCleanup (s : Runtime S T) : Runtime S T :=
  match s.environment with
  | none => s.fail
  | some _ =>
    if s.links.head ≠ none then s else { s with environment := none, released := s.released + 1 }

/-- `finishEnvironmentCleanup`. -/
def finishEnvironmentCleanup (t : T) (s : Runtime S T) : Runtime S T :=
  s.read t fun o =>
    let s := s.unlinkEnvironment t
    let s := s.assign t fun o => { o with environment := false }
    let s := s.delete t
    if o.environment then s.completeCleanup else s

/-- `if (*storage_ == this) *storage_ = nullptr`. -/
def clearStorage (t : T) (session : S) (s : Runtime S T) : Runtime S T :=
  match s.handles session with
  | none => s.fail
  | some transport =>
    if transport = some t then { s with handles := Function.update s.handles session (some none) }
    else s

/-- The part of `beginEnvironmentCleanup` that is about `storage_`. -/
def detachSession (t : T) (s : Runtime S T) : Runtime S T :=
  s.read t fun o =>
    match o.storage with
    | none => s
    | some session => (s.clearStorage t session).assign t fun o => { o with storage := none }

/-- `beginEnvironmentCleanup`. -/
def beginEnvironmentCleanup (t : T) (s : Runtime S T) : Runtime S T :=
  let s := s.assign t fun o => { o with environmentCleaning := true, destroyRequested := true }
  let s := s.detachSession t
  let s := s.closeNow t
  s.read t fun o =>
    if !o.pollInitialized || o.pollClosed then s.finishEnvironmentCleanup t else s

/-- The loop of `cleanupNativeEnvironment`; running out of turns counts as a fault. -/
def cleanupLoop : ℕ → Option T → Runtime S T → Runtime S T
  | _, none, s => s
  | 0, some _, s => s.fail
  | turns + 1, some t, s =>
    s.read t fun _ =>
      let next := s.links.next t
      cleanupLoop turns next (s.beginEnvironmentCleanup t)

/-- `cleanupNativeEnvironment`. -/
def cleanupNativeEnvironment (s : Runtime S T) : Runtime S T :=
  match s.environment with
  | none => s.fail
  | some environment =>
    let s :=
      { s with environment := some { environment with cleaning := true }, cleanupBegun := true }
    match s.links.head with
    | none => s.completeCleanup
    | some t => s.cleanupLoop s.created.card (some t)

/-- `attachNativeTransport`, once the stream has been found fit, and its assignment. -/
def attach (session : S) (t : T) (valid : Bool) (s : Runtime S T) : Runtime S T :=
  let s :=
    { s with
      transports := Function.update s.transports t (some { storage := some session }),
      created := insert t s.created }
  if valid then
    let s := s.linkEnvironment t
    { s with handles := Function.update s.handles session (some (some t)) }
  else s.delete t

/-- `activate`, up to the first call into JavaScript. -/
def activate (t : T) (initialized : Bool) (s : Runtime S T) : Runtime S T :=
  s.read t fun o =>
    if o.active || o.closing || !initialized then s
    else
      let s := s.assign t fun o =>
        { o with poll := .opened, pollInitialized := true, active := true }
      { s with stack := .method t :: s.stack }

/-- `dispose` and the finalizer, up to the fate of the handle. -/
def dispose (t : T) (s : Runtime S T) : Runtime S T :=
  (s.assign t fun o => { o with storage := none }).requestDestroy t

/-- The end of `onPollClosed`. -/
def finishPollClosed (t : T) (s : Runtime S T) : Runtime S T :=
  let s := s.assign t fun o => { o with insideCloseCallback := false }
  s.read t fun o => if o.destroyRequested then s.delete t else s

/-- `onPollClosed`. -/
def onPollClosed (t : T) (s : Runtime S T) : Runtime S T :=
  let s := s.assign t fun o => { o with poll := .closed, pollClosed := true }
  s.read t fun o =>
    if o.environmentCleaning then s.finishEnvironmentCleanup t
    else
      let s := s.assign t fun o => { o with insideCloseCallback := true }
      { s with stack := .closeCallback t :: s.stack }

/-- The native method on the stack goes on. -/
def resume (frame : Frame T) (s : Runtime S T) : Runtime S T :=
  match frame with
  | .method t => s.touch (some t)
  | .cancelWrites t => s.closePoll t
  | .requestDestroy t => s.deleteIfClosed t
  | .closeCallback t => s.finishPollClosed t

/-- The state of the poll handle of a transport. -/
def pollOf (t : T) (s : Runtime S T) : PollHandle :=
  (s.transports t).elim .uninitialized (·.poll)

/-- One event. Callbacks of libuv and the cleanup hook run when the stack is empty. Before
the activation, `eiows.js` neither feeds a transport nor writes to it. -/
def next (s : Runtime S T) : Event S T → Option (Runtime S T)
  | .attach session t valid =>
    if s.handles session = some none ∧ t ∉ s.created then
      match s.environment with
      | none => some s
      | some environment => if environment.cleaning then some s else some (s.attach session t valid)
    else none
  | .activate session initialized =>
    match s.handles session with
    | none => none
    | some none => some s
    | some (some t) => some (s.activate t initialized)
  | .terminate session =>
    match s.handles session with
    | none => none
    | some none => some s
    | some (some t) => some (s.closeNow t)
  | .dispose session =>
    match s.handles session with
    | none => none
    | some none => some s
    | some (some t) =>
      some ({ s with handles := Function.update s.handles session (some none) }.dispose t)
  | .finalize session =>
    match s.handles session with
    | none => none
    | some transport =>
      let s := { s with handles := Function.update s.handles session none }
      match transport with
      | none => some s
      | some t => some (s.dispose t)
  | .operate session =>
    match s.handles session with
    | none => none
    | some none => some s
    | some (some t) =>
      match s.transports t with
      | none => some s.fail
      | some o =>
        if !o.active then none
        else if o.closing then some s
        else some { s with stack := .method t :: s.stack }
  | .poll t =>
    if s.stack = [] ∧ s.pollOf t = .opened then some { s with stack := [.method t] } else none
  | .close =>
    match s.stack with
    | .method t :: _ => some (s.closeNow t)
    | _ => none
  | .resume =>
    match s.stack with
    | [] => none
    | frame :: stack => some ({ s with stack }.resume frame)
  | .pollClosed t =>
    if s.stack = [] ∧ s.pollOf t = .closing then some (s.onPollClosed t) else none
  | .cleanup =>
    if s.stack = [] ∧ s.cleanupBegun = false then some s.cleanupNativeEnvironment else none

/-- The states that any events reach from the start of the environment. -/
abbrev Reaches (s : Runtime S T) : Prop :=
  Transition.Reachable (· = ({} : Runtime S T)) (fun s event s' => s.next event = some s') s

end Runtime

end Eiows.Lifetime
