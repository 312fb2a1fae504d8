import Eiows.Transition.System
import Mathlib.Data.Finset.Erase
import Mathlib.Data.Finset.Insert
import Mathlib.Logic.Function.Basic

/-!
# The lock of the source cache

The installers of all processes share one directory of Node sources. `acquireCacheLock`
renames a prepared directory, which names its owner, to the path of the lock, and
recovers the lock of an owner that has exited. Between two steps on the file system
any other process may go on, exit or crash.
-/

namespace Eiows

/-- Who runs the calls of `acquireCacheLock`. A call is named by its token. -/
structure Installers (Token Process Host : Type) where
  process : Token → Process
  hostname : Process → Host

/-- Where a call of `acquireCacheLock`, or of the release function it returned, goes on. -/
inductive CallState (Token : Type) where
  | uncalled
  /-- `lstatSync` of `inspectCacheLock`, in the loop. -/
  | inspect
  /-- `readFileSync` of `inspectCacheLock`, in the loop. -/
  | read
  /-- `renameSync(prepared, lockDirectory)`. -/
  | publish
  /-- `lstatSync` of `inspectCacheLock`, in `recoverCacheLock`. -/
  | reinspect (owner : Token)
  /-- `readFileSync` of `inspectCacheLock`, in `recoverCacheLock`. -/
  | reread (owner : Token)
  /-- `cacheLockOwnerIsAlive`, in `recoverCacheLock`. -/
  | probe (owner : Token)
  /-- `renameSync(lockDirectory, recovered)`. -/
  | recover (owner : Token)
  | delayed
  /-- `acquireCacheLock` has returned. -/
  | held
  /-- `lstatSync` of `inspectCacheLock`, in the release function. -/
  | releaseInspect
  /-- `readFileSync` of `inspectCacheLock`, in the release function. -/
  | releaseRead
  /-- `renameSync(lockDirectory, retired)`. -/
  | retire
  /-- `rmSync(retired)`. -/
  | remove
  | released
  /-- `acquireCacheLock` threw. -/
  | failed
  /-- The release function threw. -/
  | releaseFailed
  deriving DecidableEq

/-- The directories beside the lock, the processes and their calls. -/
structure CacheLock (Token Process : Type) where
  /-- The token in `owner.json` of the lock directory. -/
  lockDirectory : Option Token := none
  /-- The tokens of the directories `.recovered-`. -/
  recovered : Finset Token := ∅
  /-- The tokens of the directories `.released-`. -/
  retired : Finset Token := ∅
  alive : Process → Bool := fun _ => true
  calls : Token → CallState Token := fun _ => .uncalled

/-- What can happen: a step of a call, an exception in it, and the end of a process. -/
inductive LockEvent (Token Process : Type) where
  | step (token : Token)
  | throw (token : Token)
  | exit (process : Process)

variable {Token Process Host : Type} [DecidableEq Token] [DecidableEq Process] [DecidableEq Host]

namespace CacheLock

/-- A call goes on at another place. -/
def goto (token : Token) (state : CallState Token) (s : CacheLock Token Process) :
    CacheLock Token Process :=
  { s with calls := Function.update s.calls token state }

/-- `cacheLockOwnerIsAlive`, asked by the call `token`. -/
def cacheLockOwnerIsAlive (installers : Installers Token Process Host) (token owner : Token)
    (s : CacheLock Token Process) : Bool :=
  if installers.hostname (installers.process owner) ≠
      installers.hostname (installers.process token) then true
  else s.alive (installers.process owner)

/-- The next step of a call on the file system. -/
def advance (installers : Installers Token Process Host) (token : Token)
    (s : CacheLock Token Process) : Option (CacheLock Token Process) :=
  match s.calls token with
  | .uncalled => some (s.goto token .inspect)
  | .inspect =>
    if s.lockDirectory = none then some (s.goto token .publish) else some (s.goto token .read)
  | .read =>
    match s.lockDirectory with
    | none => some (s.goto token .delayed)
    | some owner => some (s.goto token (.reinspect owner))
  | .publish =>
    -- the lock directory is never empty, so that the rename over it is refused
    match s.lockDirectory with
    | none => some ({ s with lockDirectory := some token }.goto token .held)
    | some _ => some (s.goto token .delayed)
  | .reinspect owner =>
    if s.lockDirectory = none then some (s.goto token .delayed)
    else some (s.goto token (.reread owner))
  | .reread owner =>
    if s.lockDirectory = some owner then some (s.goto token (.probe owner))
    else some (s.goto token .delayed)
  | .probe owner =>
    if s.cacheLockOwnerIsAlive installers token owner then some (s.goto token .delayed)
    else some (s.goto token (.recover owner))
  | .recover owner =>
    if s.lockDirectory = none ∨ owner ∈ s.recovered then some (s.goto token .delayed)
    else
      some ({ s with lockDirectory := none, recovered := insert owner s.recovered }.goto token
        .inspect)
  | .delayed => some (s.goto token .inspect)
  | .held => some (s.goto token .releaseInspect)
  | .releaseInspect =>
    if s.lockDirectory = none then some (s.goto token .released)
    else some (s.goto token .releaseRead)
  | .releaseRead =>
    if s.lockDirectory = some token then some (s.goto token .retire)
    else some (s.goto token .released)
  | .retire =>
    if s.lockDirectory = none ∨ token ∈ s.retired then some (s.goto token .releaseFailed)
    else
      some ({ s with lockDirectory := none, retired := insert token s.retired }.goto token .remove)
  | .remove => some ({ s with retired := s.retired.erase token }.goto token .released)
  | .released | .failed | .releaseFailed => none

/-- A call throws: the deadline has passed, or the file system failed. -/
def abort (token : Token) (s : CacheLock Token Process) : Option (CacheLock Token Process) :=
  match s.calls token with
  | .uncalled | .held | .released | .failed | .releaseFailed => none
  | .inspect | .read | .publish | .reinspect _ | .reread _ | .probe _ | .recover _ | .delayed =>
    some (s.goto token .failed)
  | .releaseInspect | .releaseRead | .retire => some (s.goto token .releaseFailed)
  | .remove => some (s.goto token .released)

/-- One event. A process that has ended takes no step. -/
def next (installers : Installers Token Process Host) (s : CacheLock Token Process) :
    LockEvent Token Process → Option (CacheLock Token Process)
  | .step token => if s.alive (installers.process token) then s.advance installers token else none
  | .throw token => if s.alive (installers.process token) then s.abort token else none
  | .exit process => some { s with alive := Function.update s.alive process false }

/-- A call whose process is alive has the lock. -/
def Holds (installers : Installers Token Process Host) (s : CacheLock Token Process)
    (token : Token) : Prop :=
  s.calls token = .held ∧ s.alive (installers.process token) = true

/-- The next step of a call moves the lock directory of an owner away, to recover it. -/
def Recovers (installers : Installers Token Process Host) (s : CacheLock Token Process)
    (token owner : Token) : Prop :=
  s.alive (installers.process token) = true ∧ s.lockDirectory = some owner ∧
    ∃ read, s.calls token = .recover read ∧ read ∉ s.recovered

/-- A call whose release function has moved its lock directory away. -/
def HasReleased (s : CacheLock Token Process) (token : Token) : Prop :=
  s.calls token = .remove ∨ s.calls token = .released

instance (s : CacheLock Token Process) : DecidablePred s.HasReleased :=
  fun token => inferInstanceAs (Decidable (s.calls token = .remove ∨ s.calls token = .released))

/-- No probe finds an owner exited that has released the lock since its token was read. -/
def Settled (installers : Installers Token Process Host) (s : CacheLock Token Process) :
    LockEvent Token Process → Prop
  | .step token => ∀ owner, s.calls token = .probe owner →
      s.cacheLockOwnerIsAlive installers token owner = false → ¬s.HasReleased owner
  | _ => True

/-- The lock before the first call. -/
def Initial (s : CacheLock Token Process) : Prop :=
  s.lockDirectory = none ∧ s.recovered = ∅ ∧ s.retired = ∅ ∧ ∀ token, s.calls token = .uncalled

/-- A state of any interleaving. -/
def Reachable (installers : Installers Token Process Host) (s : CacheLock Token Process) : Prop :=
  Transition.Reachable Initial (fun s event s' => s.next installers event = some s') s

/-- A state of an interleaving in which every probe meets `Settled`. -/
def SettledReachable (installers : Installers Token Process Host)
    (s : CacheLock Token Process) : Prop :=
  Transition.Reachable Initial
    (fun s event s' => s.Settled installers event ∧ s.next installers event = some s') s

end CacheLock

end Eiows
