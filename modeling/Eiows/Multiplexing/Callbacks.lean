import Eiows.Transition.System
import Mathlib.Data.Finset.Card
import Mathlib.Data.Finset.Filter
import Mathlib.Logic.Function.Basic

/-!
# TLS callback multiplexing

A native transport takes over a TLS connection of the host. While it owns the
connection, the session and keylog callbacks of its contexts are replaced by
multiplexers, which keep the owned connections away from the callbacks of the host.
-/

namespace Eiows

/-- The callbacks of an `SSL_CTX` that are multiplexed. -/
inductive CallbackKind where
  | newSession
  | getSession
  | keylog
  deriving DecidableEq, Repr

/-- A callback registered on an `SSL_CTX`: the multiplexer of its kind, or one of the host. -/
inductive Callback (H : Type) where
  | multiplexer
  | host (h : H)
  deriving DecidableEq

/-- `TLSContextCallbacks`. A null pointer is `none`. -/
structure TLSContextCallbacks (H : Type) where
  saved : CallbackKind → Option (Callback H) := fun _ => none
  owners : ℕ := 0

/-- What OpenSSL keeps for a connection, as far as it is read or changed here. -/
structure TLSConnection (Ctx : Type) where
  context : Ctx
  infoCallback : Bool := true
  certCallback : Bool := true
  msgCallback : Bool := true
  appData : Bool := true
  noRenegotiation : Bool := false

/-- The globals `tlsContexts` and `ownedTLSConnections`, and the state of OpenSSL. -/
structure TLSCallbacks (Ctx Conn H : Type) where
  tlsContexts : Ctx → Option (TLSContextCallbacks H)
  ownedTLSConnections : Finset Conn
  callbacks : Ctx → CallbackKind → Option (Callback H)
  connections : Conn → TLSConnection Ctx

variable {Ctx Conn H : Type}

namespace TLSCallbacks

/-- `SSL_get_SSL_CTX`. -/
def context (s : TLSCallbacks Ctx Conn H) (ssl : Conn) : Ctx := (s.connections ssl).context

section Multiplexers

variable [DecidableEq Conn]

/-- The body of the three multiplexers: the callback of the host that is called, if any. -/
def multiplex (kind : CallbackKind) (ssl : Conn) (s : TLSCallbacks Ctx Conn H) : Option H :=
  if ssl ∈ s.ownedTLSConnections then none
  else
    match (s.tlsContexts (s.context ssl)).bind fun entry => entry.saved kind with
    | some (.host h) => some h
    | _ => none

/-- `multiplexNewSession`: without a callback it returns 0. -/
def multiplexNewSession (ssl : Conn) (s : TLSCallbacks Ctx Conn H) : Option H :=
  s.multiplex .newSession ssl

/-- `multiplexGetSession`: without a callback it returns no session. -/
def multiplexGetSession (ssl : Conn) (s : TLSCallbacks Ctx Conn H) : Option H :=
  s.multiplex .getSession ssl

/-- `multiplexKeylog`. -/
def multiplexKeylog (ssl : Conn) (s : TLSCallbacks Ctx Conn H) : Option H :=
  s.multiplex .keylog ssl

/-- The multiplexer of a kind. -/
def multiplexer : CallbackKind → Conn → TLSCallbacks Ctx Conn H → Option H
  | .newSession => multiplexNewSession
  | .getSession => multiplexGetSession
  | .keylog => multiplexKeylog

/-- OpenSSL calls the callback that is registered on a context: the callback of the
host that runs, directly or through the multiplexer. -/
def invoke (context : Ctx) (kind : CallbackKind) (ssl : Conn) (s : TLSCallbacks Ctx Conn H) :
    Option H :=
  match s.callbacks context kind with
  | none => none
  | some (.host h) => some h
  | some .multiplexer => multiplexer kind ssl s

end Multiplexers

section Retain

variable [DecidableEq Ctx]

/-- `retainTLSContext`. -/
def retainTLSContext (context : Option Ctx) (s : TLSCallbacks Ctx Conn H) :
    TLSCallbacks Ctx Conn H :=
  match context with
  | none => s
  | some c =>
    let callbacks := (s.tlsContexts c).getD {}
    if callbacks.owners ≠ 0 then
      { s with
        tlsContexts := Function.update s.tlsContexts c
          (some { callbacks with owners := callbacks.owners + 1 }) }
    else
      { s with
        tlsContexts := Function.update s.tlsContexts c
          (some { saved := s.callbacks c, owners := callbacks.owners + 1 })
        callbacks := Function.update s.callbacks c fun _ => some .multiplexer }

@[simp] theorem retainTLSContext_ownedTLSConnections (context : Option Ctx)
    (s : TLSCallbacks Ctx Conn H) :
    (s.retainTLSContext context).ownedTLSConnections = s.ownedTLSConnections := by
  unfold retainTLSContext
  split
  · rfl
  · dsimp only
    split_ifs <;> rfl

@[simp] theorem retainTLSContext_connections (context : Option Ctx)
    (s : TLSCallbacks Ctx Conn H) :
    (s.retainTLSContext context).connections = s.connections := by
  unfold retainTLSContext
  split
  · rfl
  · dsimp only
    split_ifs <;> rfl

variable [DecidableEq Conn]

/-- `retainTLSCallbacks`. -/
def retainTLSCallbacks (ssl : Conn) (initialContext : Option Ctx) (s : TLSCallbacks Ctx Conn H) :
    TLSCallbacks Ctx Conn H :=
  let currentContext := some (s.context ssl)
  let s := s.retainTLSContext initialContext
  let s := if currentContext ≠ initialContext then s.retainTLSContext currentContext else s
  { s with
    ownedTLSConnections := insert ssl s.ownedTLSConnections
    connections := Function.update s.connections ssl
      { context := s.context ssl
        infoCallback := false
        certCallback := false
        msgCallback := false
        appData := false
        noRenegotiation := true } }

@[simp] theorem retainTLSCallbacks_ownedTLSConnections (ssl : Conn) (initialContext : Option Ctx)
    (s : TLSCallbacks Ctx Conn H) :
    (s.retainTLSCallbacks ssl initialContext).ownedTLSConnections =
      insert ssl s.ownedTLSConnections := by
  unfold retainTLSCallbacks
  dsimp only
  split_ifs <;> simp

@[simp] theorem retainTLSCallbacks_context (ssl other : Conn) (initialContext : Option Ctx)
    (s : TLSCallbacks Ctx Conn H) :
    (s.retainTLSCallbacks ssl initialContext).context other = s.context other := by
  unfold retainTLSCallbacks TLSCallbacks.context
  dsimp only
  by_cases h : other = ssl
  · rw [h, Function.update_self]
    split_ifs <;> simp
  · rw [Function.update_of_ne h]
    split_ifs <;> simp

end Retain

section Release

variable [DecidableEq Ctx] [DecidableEq H]

/-- `releaseTLSContext`. -/
def releaseTLSContext (context : Option Ctx) (s : TLSCallbacks Ctx Conn H) :
    TLSCallbacks Ctx Conn H :=
  match context with
  | none => s
  | some c =>
    match s.tlsContexts c with
    | none => s
    | some entry =>
      if entry.owners - 1 ≠ 0 then
        { s with
          tlsContexts := Function.update s.tlsContexts c
            (some { entry with owners := entry.owners - 1 }) }
      else
        { s with
          tlsContexts := Function.update s.tlsContexts c none
          callbacks := Function.update s.callbacks c fun kind =>
            if s.callbacks c kind = some .multiplexer then entry.saved kind
            else s.callbacks c kind }

@[simp] theorem releaseTLSContext_ownedTLSConnections (context : Option Ctx)
    (s : TLSCallbacks Ctx Conn H) :
    (s.releaseTLSContext context).ownedTLSConnections = s.ownedTLSConnections := by
  unfold releaseTLSContext
  split
  · rfl
  · split
    · rfl
    · split_ifs <;> rfl

@[simp] theorem releaseTLSContext_connections (context : Option Ctx)
    (s : TLSCallbacks Ctx Conn H) :
    (s.releaseTLSContext context).connections = s.connections := by
  unfold releaseTLSContext
  split
  · rfl
  · split
    · rfl
    · split_ifs <;> rfl

variable [DecidableEq Conn]

/-- `releaseTLSCallbacks`. -/
def releaseTLSCallbacks (ssl : Conn) (initialContext : Option Ctx) (s : TLSCallbacks Ctx Conn H) :
    TLSCallbacks Ctx Conn H :=
  let currentContext := some (s.context ssl)
  let s := { s with ownedTLSConnections := s.ownedTLSConnections.erase ssl }
  let s := if currentContext ≠ initialContext then s.releaseTLSContext currentContext else s
  s.releaseTLSContext initialContext

@[simp] theorem releaseTLSCallbacks_ownedTLSConnections (ssl : Conn)
    (initialContext : Option Ctx) (s : TLSCallbacks Ctx Conn H) :
    (s.releaseTLSCallbacks ssl initialContext).ownedTLSConnections =
      s.ownedTLSConnections.erase ssl := by
  unfold releaseTLSCallbacks
  dsimp only
  split_ifs <;> simp

@[simp] theorem releaseTLSCallbacks_context (ssl other : Conn) (initialContext : Option Ctx)
    (s : TLSCallbacks Ctx Conn H) :
    (s.releaseTLSCallbacks ssl initialContext).context other = s.context other := by
  unfold releaseTLSCallbacks TLSCallbacks.context
  dsimp only
  split_ifs <;> simp

end Release

end TLSCallbacks

/-- The callbacks, with what the host and the transports did. -/
structure TLSHistory (Ctx Conn H : Type) extends TLSCallbacks Ctx Conn H where
  /-- The initial context of each owned connection. -/
  initialContext : Conn → Option Ctx
  /-- The callbacks that the host installed most recently. -/
  installed : Ctx → CallbackKind → Option H
  /-- The callbacks that the host had installed when a context got its first owner. -/
  captured : Ctx → CallbackKind → Option H
  /-- Whether the host installed a callback since the context got its first owner. -/
  reinstalled : Ctx → CallbackKind → Bool

namespace TLSHistory

variable [DecidableEq Ctx] [DecidableEq Conn] [DecidableEq H]

/-- An owned connection has retained a context. -/
def Holds (w : TLSHistory Ctx Conn H) (c : Ctx) (ssl : Conn) : Prop :=
  w.initialContext ssl = some c ∨ w.context ssl = c

instance (w : TLSHistory Ctx Conn H) (c : Ctx) : DecidablePred (w.Holds c) :=
  fun ssl => inferInstanceAs (Decidable (w.initialContext ssl = some c ∨ w.context ssl = c))

/-- The number of owned connections that have retained a context. -/
def holders (w : TLSHistory Ctx Conn H) (c : Ctx) : ℕ :=
  (w.ownedTLSConnections.filter (w.Holds c)).card

/-- A transport retains the callbacks of a connection. -/
def retain (w : TLSHistory Ctx Conn H) (ssl : Conn) (initialContext : Option Ctx) :
    TLSHistory Ctx Conn H where
  toTLSCallbacks := w.retainTLSCallbacks ssl initialContext
  initialContext := Function.update w.initialContext ssl initialContext
  installed := w.installed
  captured c kind := if w.holders c = 0 then w.installed c kind else w.captured c kind
  reinstalled c kind := w.holders c ≠ 0 && w.reinstalled c kind

/-- A transport releases the callbacks of its connection. -/
def release (w : TLSHistory Ctx Conn H) (ssl : Conn) : TLSHistory Ctx Conn H :=
  { w with toTLSCallbacks := w.releaseTLSCallbacks ssl (w.initialContext ssl) }

/-- The host installs its own callback, or none. -/
def install (w : TLSHistory Ctx Conn H) (c : Ctx) (kind : CallbackKind) (h : Option H) :
    TLSHistory Ctx Conn H :=
  { w with
    callbacks := Function.update w.callbacks c
      (Function.update (w.callbacks c) kind (h.map .host))
    installed := Function.update w.installed c (Function.update (w.installed c) kind h)
    reinstalled := Function.update w.reinstalled c (Function.update (w.reinstalled c) kind true) }

/-- A connection that is not owned gets another context, or is a new connection. -/
def connect (w : TLSHistory Ctx Conn H) (ssl : Conn) (connection : TLSConnection Ctx) :
    TLSHistory Ctx Conn H :=
  { w with connections := Function.update w.connections ssl connection }

/-- The host has installed its callbacks, and no connection is owned. -/
structure Initial (w : TLSHistory Ctx Conn H) : Prop where
  unowned : w.ownedTLSConnections = ∅
  untracked : ∀ c, w.tlsContexts c = none
  callbacks : ∀ c kind, w.callbacks c kind = (w.installed c kind).map .host

/-- What can happen. -/
inductive Event (Ctx Conn H : Type) where
  | retain (ssl : Conn) (initialContext : Option Ctx)
  | release (ssl : Conn)
  | install (c : Ctx) (kind : CallbackKind) (h : Option H)
  | connect (ssl : Conn) (connection : TLSConnection Ctx)

/-- One event. A connection is owned by one transport at a time, and its context
does not change while it is owned. -/
inductive Step : TLSHistory Ctx Conn H → Event Ctx Conn H → TLSHistory Ctx Conn H → Prop
  | retain {w : TLSHistory Ctx Conn H} {ssl : Conn} {initialContext : Option Ctx}
      (hssl : ssl ∉ w.ownedTLSConnections) :
      Step w (.retain ssl initialContext) (w.retain ssl initialContext)
  | release {w : TLSHistory Ctx Conn H} {ssl : Conn} (hssl : ssl ∈ w.ownedTLSConnections) :
      Step w (.release ssl) (w.release ssl)
  | install {w : TLSHistory Ctx Conn H} {c : Ctx} {kind : CallbackKind} {h : Option H} :
      Step w (.install c kind h) (w.install c kind h)
  | connect {w : TLSHistory Ctx Conn H} {ssl : Conn} {connection : TLSConnection Ctx}
      (hssl : ssl ∉ w.ownedTLSConnections) :
      Step w (.connect ssl connection) (w.connect ssl connection)

/-- A state after any events. -/
def Reachable (w : TLSHistory Ctx Conn H) : Prop := Transition.Reachable Initial Step w

end TLSHistory

end Eiows
