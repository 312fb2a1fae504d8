import Eiows.Lifetime.Environment

/-!
# Who may use a transport

The invariant of the runtime: the list of the environment holds the transports that are
alive, a handle and its transport refer to each other, and a method on the stack belongs
to a transport that cannot be deleted before the method has returned.
-/

namespace Eiows.Lifetime

open Intrusive

variable {S T : Type}

namespace TransportObject

/-- `closeNow` has begun and has not yet closed the poll handle. -/
def cancelling (o : TransportObject S) : Bool :=
  o.active && o.closing && o.poll = .opened

/-- What the fields of a transport say about each other. -/
structure Sound (o : TransportObject S) : Prop where
  registered : o.environmentRegistered = true
  environment : o.environment = true
  initialized : o.pollInitialized = o.active
  idle : o.active = false → o.poll = .uninitialized ∧ o.pollClosed = o.closing
  polled : o.active = true → o.poll ≠ .uninitialized ∧ (o.pollClosed = true ↔ o.poll = .closed)
  running : o.active = true → o.closing = false → o.poll = .opened
  requested : o.destroyRequested = true → o.storage = none
  cleaning : o.environmentCleaning = true → o.destroyRequested = true ∧ o.poll ≠ .opened

/-- A method can be on the stack. -/
structure Entered (o : TransportObject S) (frame : Frame T) : Prop where
  active : o.active = true
  cleaning : o.environmentCleaning = false
  poll : (∃ t, frame = .closeCallback t) ↔ o.poll = .closed

end TransportObject

namespace Runtime

variable {s : Runtime S T} {l : List T} {t : T} {o o' : TransportObject S}
  [DecidableEq T]

/-- `closeNow` of a transport is on the stack, before the poll handle is closed. -/
def isCancelling (t : T) (s : Runtime S T) : Bool :=
  (s.transports t).elim false TransportObject.cancelling

/-- The close callback of a transport is on the stack. -/
def isInsideCloseCallback (t : T) (s : Runtime S T) : Bool :=
  (s.transports t).elim false TransportObject.insideCloseCallback

/-- No deleted object has been used, and the list `l` of the environment holds the others. -/
structure Held (s : Runtime S T) (l : List T) : Prop where
  noFault : s.fault = false
  represents : s.links.Represents l
  members : ∀ t, t ∈ l ↔ ∃ o, s.transports t = some o
  created : ∀ t ∈ l, t ∈ s.created
  deletions : ∀ t, s.deletions t ≤ 1 ∧
    (t ∉ s.created ∨ (∃ o, s.transports t = some o) → s.deletions t = 0)
  sound : ∀ t o, s.transports t = some o → o.Sound
  handles : ∀ session t,
    s.handles session = some (some t) ↔ ∃ o, s.transports t = some o ∧ o.storage = some session
  frames : ∀ frame ∈ s.stack, ∃ o, s.transports frame.transport = some o ∧ o.Entered frame
  cancelling : ∀ t, s.stack.count (.cancelWrites t) = (s.isCancelling t).toNat
  callbacks : ∀ t, s.stack.count (.closeCallback t) = (s.isInsideCloseCallback t).toNat

/-- A transport gets other fields, and the methods on the stack of this transport change. -/
def put (t : T) (o : TransportObject S) (handles : S → Option (Option T)) (stack : List (Frame T))
    (s : Runtime S T) : Runtime S T :=
  { s with transports := Function.update s.transports t (some o), handles, stack }

/-- A transport is deleted. -/
def removed (t : T) (s : Runtime S T) : Runtime S T :=
  { s with
    transports := Function.update s.transports t none
    links := s.links.unlink t
    deletions := Function.update s.deletions t (s.deletions t + 1) }

@[simp]
theorem put_self (handles : S → Option (Option T)) (stack : List (Frame T)) :
    (s.put t o handles stack).transports t = some o :=
  Function.update_self ..

theorem put_of_ne {a : T} (ha : a ≠ t) (handles : S → Option (Option T))
    (stack : List (Frame T)) : (s.put t o handles stack).transports a = s.transports a :=
  Function.update_of_ne ha ..

@[simp]
theorem removed_self : (s.removed t).transports t = none :=
  Function.update_self ..

theorem removed_of_ne {a : T} (ha : a ≠ t) : (s.removed t).transports a = s.transports a :=
  Function.update_of_ne ha ..

/-- What an update of one transport has to respect. -/
structure Fits (t : T) (o : TransportObject S) (handles : S → Option (Option T))
    (stack : List (Frame T)) (s : Runtime S T) : Prop where
  sound : o.Sound
  own : ∀ session, handles session = some (some t) ↔ o.storage = some session
  others : ∀ session t', t' ≠ t →
    (handles session = some (some t') ↔ s.handles session = some (some t'))
  entered : ∀ frame ∈ stack, frame.transport = t → o.Entered frame
  frames : ∀ frame, frame.transport ≠ t → stack.count frame = s.stack.count frame
  cancelling : stack.count (.cancelWrites t) = o.cancelling.toNat
  callbacks : stack.count (.closeCallback t) = o.insideCloseCallback.toNat

theorem Held.put (h : s.Held l) (ho : s.transports t = some o) {handles : S → Option (Option T)}
    {stack : List (Frame T)} (hfits : s.Fits t o' handles stack) :
    (s.put t o' handles stack).Held l where
  noFault := h.noFault
  represents := h.represents
  members a := by
    rw [h.members a]
    by_cases ha : a = t
    · subst ha
      simp [ho]
    · rw [put_of_ne ha]
  created := h.created
  deletions a := by
    refine ⟨(h.deletions a).1, fun ha => (h.deletions a).2 (ha.imp_right fun ha => ?_)⟩
    by_cases hat : a = t
    · exact hat ▸ ⟨o, ho⟩
    · exact put_of_ne hat .. ▸ ha
  sound a oa ha := by
    by_cases hat : a = t
    · subst hat
      rw [put_self, Option.some.injEq] at ha
      exact ha ▸ hfits.sound
    · rw [put_of_ne hat] at ha
      exact h.sound a oa ha
  handles session a := by
    by_cases hat : a = t
    · subst hat
      simp only [put_self, Option.some.injEq, exists_eq_left']
      exact hfits.own session
    · rw [put_of_ne hat]
      exact (hfits.others session a hat).trans (h.handles session a)
  frames frame hframe := by
    by_cases hat : frame.transport = t
    · refine ⟨o', ?_, hfits.entered frame hframe hat⟩
      rw [hat, put_self]
    · rw [put_of_ne hat]
      apply h.frames
      apply List.count_pos_iff.mp
      rw [← hfits.frames frame hat]
      exact List.count_pos_iff.mpr hframe
  cancelling a := by
    by_cases hat : a = t
    · subst hat
      rw [isCancelling, put_self]
      exact hfits.cancelling
    · rw [isCancelling, put_of_ne hat]
      exact (hfits.frames (.cancelWrites a) hat).trans (h.cancelling a)
  callbacks a := by
    by_cases hat : a = t
    · subst hat
      rw [isInsideCloseCallback, put_self]
      exact hfits.callbacks
    · rw [isInsideCloseCallback, put_of_ne hat]
      exact (hfits.frames (.closeCallback a) hat).trans (h.callbacks a)

/-- A transport to which nothing refers any more can be deleted. -/
theorem Held.removed (h : s.Held l) (ho : s.transports t = some o) (hstorage : o.storage = none)
    (hstack : ∀ frame ∈ s.stack, frame.transport ≠ t) : (s.removed t).Held (l.erase t) where
  noFault := h.noFault
  represents := h.represents.unlink ((h.members t).mpr ⟨o, ho⟩)
  members a := by
    rw [h.represents.nodup.mem_erase_iff, h.members a]
    by_cases ha : a = t
    · simp [ha]
    · simp [ha, removed_of_ne ha]
  created a ha := h.created a (List.mem_of_mem_erase ha)
  deletions a := by
    by_cases hat : a = t
    · subst hat
      have hcreated := h.created a ((h.members a).mpr ⟨o, ho⟩)
      have hzero := (h.deletions a).2 (.inr ⟨o, ho⟩)
      simp [Runtime.removed, hzero, hcreated]
    · simp only [Runtime.removed, Function.update_of_ne hat]
      exact h.deletions a
  sound a oa ha := by
    by_cases hat : a = t
    · rw [hat, removed_self] at ha
      cases ha
    · rw [removed_of_ne hat] at ha
      exact h.sound a oa ha
  handles session a := by
    refine (h.handles session a).trans ?_
    by_cases hat : a = t
    · subst hat
      simp [ho, hstorage]
    · rw [removed_of_ne hat]
  frames frame hframe := by
    rw [removed_of_ne (hstack frame hframe)]
    exact h.frames frame hframe
  cancelling a := by
    by_cases hat : a = t
    · subst hat
      rw [isCancelling, removed_self]
      exact List.count_eq_zero.mpr fun hmem => hstack _ hmem rfl
    · rw [isCancelling, removed_of_ne hat]
      exact h.cancelling a
  callbacks a := by
    by_cases hat : a = t
    · subst hat
      rw [isInsideCloseCallback, removed_self]
      exact List.count_eq_zero.mpr fun hmem => hstack _ hmem rfl
    · rw [isInsideCloseCallback, removed_of_ne hat]
      exact h.callbacks a

/-- Without a method on the stack, nothing is in progress. -/
theorem Held.quiet (h : s.Held l) (hstack : s.stack = []) (ho : s.transports t = some o) :
    o.cancelling = false ∧ o.insideCloseCallback = false := by
  have hcancelling := h.cancelling t
  have hcallbacks := h.callbacks t
  rw [hstack, isCancelling, ho] at hcancelling
  rw [hstack, isInsideCloseCallback, ho] at hcallbacks
  constructor
  · exact Bool.toNat_eq_zero.mp hcancelling.symm
  · exact Bool.toNat_eq_zero.mp hcallbacks.symm

/-- No method of a transport whose poll handle is closed is on the stack, but for the
close callback. -/
theorem Held.alone (h : s.Held l) (ho : s.transports t = some o)
    (hpoll : o.active = false ∨ (o.poll = .closed ∧ o.insideCloseCallback = false)) :
    ∀ frame ∈ s.stack, frame.transport ≠ t := by
  rintro frame hframe rfl
  obtain ⟨o₁, ho₁, hentered⟩ := h.frames frame hframe
  cases ho.symm.trans ho₁
  rcases hpoll with hidle | ⟨hclosed, hinside⟩
  · cases hidle.symm.trans hentered.active
  · obtain ⟨a, rfl⟩ := hentered.poll.mpr hclosed
    have hcount := h.callbacks a
    simp only [Frame.transport] at ho
    rw [isInsideCloseCallback, ho] at hcount
    simp only [Option.elim_some, hinside, Bool.toNat_false] at hcount
    exact List.count_eq_zero.mp hcount hframe

end Runtime

end Eiows.Lifetime
