import Eiows.CacheLock.Lock

/-!
# Mutual exclusion of the source cache lock

The directory of a recovered owner is kept, so that nobody recovers the same token
again. This excludes two owners as long as a token that is being recovered has not
been released in the normal way; a normal release keeps no directory.
-/

namespace Eiows

namespace CallState

variable {Token : Type}

/-- The call has had the lock. -/
def HasAcquired : CallState Token → Prop
  | .held | .releaseInspect | .releaseRead | .retire | .remove | .released | .releaseFailed => True
  | _ => False

/-- The call has read the token of an owner from the lock directory. -/
def HasRead (owner : Token) : CallState Token → Prop
  | .reinspect seen | .reread seen | .probe seen | .recover seen => seen = owner
  | _ => False

/-- The owner whose process the call probes with its next step. -/
def probed : CallState Token → Option Token
  | .probe owner => some owner
  | _ => none

end CallState

namespace CacheLock

variable {Token Process Host : Type} {installers : Installers Token Process Host} {s s' : CacheLock Token Process}
  {token owner : Token} {state : CallState Token}

/-- The invariant of the lock. -/
structure Guarded (installers : Installers Token Process Host) (s : CacheLock Token Process) :
    Prop where
  /-- The owner of the lock directory acquired it and did not lose it. -/
  owned : ∀ owner, s.lockDirectory = some owner →
    (s.calls owner).HasAcquired ∧ ¬s.HasReleased owner ∧ owner ∉ s.recovered
  /-- The directory of each call that acquired the lock is in its place. -/
  placed : ∀ token, (s.calls token).HasAcquired →
    s.lockDirectory = some token ∨ s.HasReleased token ∨ token ∈ s.recovered
  /-- Only exited owners were recovered. -/
  exited : ∀ owner ∈ s.recovered, s.alive (installers.process owner) = false
  /-- The tokens that are read were published. -/
  known : ∀ token owner, (s.calls token).HasRead owner → (s.calls owner).HasAcquired
  /-- An owner that is about to be recovered has exited with the lock. -/
  lost : ∀ token owner, s.calls token = .recover owner →
    s.alive (installers.process owner) = false ∧ ¬s.HasReleased owner

namespace Guarded

theorem start (h : Initial s) : s.Guarded installers := by
  obtain ⟨hlock, hrecovered, -, hcalls⟩ := h
  constructor
  · simp [hlock]
  · simp [hcalls, CallState.HasAcquired]
  · simp [hrecovered]
  · simp [hcalls, CallState.HasRead]
  · simp [hcalls]

/-- The directory of a live owner that has not released it is the lock directory. -/
theorem in_place (h : s.Guarded installers) (halive : s.alive (installers.process token) = true)
    (hacquired : (s.calls token).HasAcquired) (hreleased : ¬s.HasReleased token) :
    s.lockDirectory = some token := by
  rcases h.placed token hacquired with hlock | hreleased' | hrecovered
  · exact hlock
  · exact absurd hreleased' hreleased
  · rw [h.exited token hrecovered] at halive
    cases halive

variable [DecidableEq Token]

omit installers in
theorem hasReleased_of_ne (hcalls : s'.calls = Function.update s.calls token state)
    (hne : owner ≠ token) : s'.HasReleased owner ↔ s.HasReleased owner := by
  rw [HasReleased, HasReleased, hcalls, Function.update_of_ne hne]

/-- What is known of the tokens that were read does not change when a live call goes on. -/
theorem reads (h : s.Guarded installers) (hcalls : s'.calls = Function.update s.calls token state)
    (hsame : s'.alive = s.alive) (halive : s.alive (installers.process token) = true)
    (hacquired : (s.calls token).HasAcquired → state.HasAcquired)
    (hread : ∀ owner, state.HasRead owner → (s.calls owner).HasAcquired)
    (hlost : ∀ owner, state = .recover owner →
      s.alive (installers.process owner) = false ∧ ¬s.HasReleased owner) :
    (∀ token owner, (s'.calls token).HasRead owner → (s'.calls owner).HasAcquired) ∧
      ∀ token owner, s'.calls token = .recover owner →
        s'.alive (installers.process owner) = false ∧ ¬s'.HasReleased owner := by
  have hkept : ∀ owner, (s.calls owner).HasAcquired → (s'.calls owner).HasAcquired := by
    intro owner howner
    rw [hcalls]
    by_cases hne : owner = token
    · subst hne
      rw [Function.update_self]
      exact hacquired howner
    · rwa [Function.update_of_ne hne]
  have hgone : ∀ owner, s.alive (installers.process owner) = false → ¬s.HasReleased owner →
      s'.alive (installers.process owner) = false ∧ ¬s'.HasReleased owner := by
    intro owner hdead hreleased
    have hne : owner ≠ token := by
      rintro rfl
      rw [halive] at hdead
      cases hdead
    rw [hsame, hasReleased_of_ne hcalls hne]
    exact ⟨hdead, hreleased⟩
  constructor
  · intro other owner hother
    apply hkept
    rw [hcalls] at hother
    by_cases hne : other = token
    · rw [hne, Function.update_self] at hother
      exact hread owner hother
    · rw [Function.update_of_ne hne] at hother
      exact h.known other owner hother
  · intro other owner hother
    rw [hcalls] at hother
    by_cases hne : other = token
    · rw [hne, Function.update_self] at hother
      exact hgone owner (hlost owner hother).1 (hlost owner hother).2
    · rw [Function.update_of_ne hne] at hother
      exact hgone owner (h.lost other owner hother).1 (h.lost other owner hother).2

/-- A step that only moves a live call on. -/
theorem goto (h : s.Guarded installers) (halive : s.alive (installers.process token) = true)
    (hacquired : (s.calls token).HasAcquired ↔ state.HasAcquired)
    (hkept : s.HasReleased token → state = .remove ∨ state = .released)
    (hreleased : state = .remove ∨ state = .released → s.lockDirectory ≠ some token)
    (hread : ∀ owner, state.HasRead owner → (s.calls owner).HasAcquired)
    (hlost : ∀ owner, state = .recover owner →
      s.alive (installers.process owner) = false ∧ ¬s.HasReleased owner) :
    (s.goto token state).Guarded installers := by
  have hcalls : (s.goto token state).calls = Function.update s.calls token state := rfl
  obtain ⟨hknown, hlost⟩ := h.reads hcalls rfl halive hacquired.mp hread hlost
  have hself : (s.goto token state).HasReleased token ↔ state = .remove ∨ state = .released := by
    rw [HasReleased, hcalls, Function.update_self]
  constructor
  · intro owner howner
    obtain ⟨hhas, hnot, hrecovered⟩ := h.owned owner howner
    by_cases hne : owner = token
    · subst hne
      rw [hcalls, Function.update_self, hself]
      exact ⟨hacquired.mp hhas, fun hstate => hreleased hstate howner, hrecovered⟩
    · rw [hcalls, Function.update_of_ne hne, hasReleased_of_ne hcalls hne]
      exact ⟨hhas, hnot, hrecovered⟩
  · intro other hother
    by_cases hne : other = token
    · subst hne
      rw [hcalls, Function.update_self] at hother
      rw [hself]
      rcases h.placed other (hacquired.mpr hother) with hlock | hreleased | hrecovered
      · exact .inl hlock
      · exact .inr (.inl (hkept hreleased))
      · exact .inr (.inr hrecovered)
    · rw [hcalls, Function.update_of_ne hne] at hother
      rw [hasReleased_of_ne hcalls hne]
      exact h.placed other hother
  · exact h.exited
  · exact hknown
  · exact hlost

/-- A step that publishes the lock directory of a call. -/
theorem publish (h : s.Guarded installers) (halive : s.alive (installers.process token) = true)
    (hfree : s.lockDirectory = none) :
    ({ s with lockDirectory := some token }.goto token .held).Guarded installers := by
  let s' := { s with lockDirectory := some token }.goto token .held
  have hcalls : s'.calls = Function.update s.calls token .held := rfl
  obtain ⟨hknown, hlost⟩ := h.reads hcalls rfl halive (fun _ => trivial) (fun _ hread => hread.elim)
    (by simp)
  constructor
  · intro owner howner
    obtain rfl : token = owner := Option.some.inj howner
    refine ⟨?_, ?_, ?_⟩
    · rw [hcalls, Function.update_self]
      trivial
    · rw [HasReleased, hcalls, Function.update_self]
      simp
    · intro hrecovered
      rw [h.exited token hrecovered] at halive
      cases halive
  · intro other hother
    by_cases hne : other = token
    · rw [hne]
      exact .inl rfl
    · rw [hcalls, Function.update_of_ne hne] at hother
      rw [hasReleased_of_ne hcalls hne]
      rcases h.placed other hother with hlock | hgone
      · rw [hfree] at hlock
        cases hlock
      · exact .inr hgone
  · exact h.exited
  · exact hknown
  · exact hlost

/-- A step that moves the directory of an exited owner away. -/
theorem recover (h : s.Guarded installers) (halive : s.alive (installers.process token) = true)
    (hcall : s.calls token = .recover owner) (hlock : s.lockDirectory = some owner) :
    ({ s with lockDirectory := none, recovered := insert owner s.recovered }.goto token
      .inspect).Guarded installers := by
  let s' := { s with lockDirectory := none, recovered := insert owner s.recovered }.goto token
    .inspect
  have hcalls : s'.calls = Function.update s.calls token .inspect := rfl
  have hfresh : ¬(s.calls token).HasAcquired := by
    rw [hcall]
    exact id
  obtain ⟨hknown, hlost⟩ := h.reads hcalls rfl halive (fun hhas => absurd hhas hfresh)
    (fun _ hread => hread.elim) (by simp)
  constructor
  · rintro owner ⟨⟩
  · intro other hother
    by_cases hne : other = token
    · rw [hne, hcalls, Function.update_self] at hother
      exact hother.elim
    · rw [hcalls, Function.update_of_ne hne] at hother
      rw [hasReleased_of_ne hcalls hne]
      rcases h.placed other hother with hlock' | hreleased | hrecovered
      · cases hlock.symm.trans hlock'
        exact .inr (.inr (Finset.mem_insert_self ..))
      · exact .inr (.inl hreleased)
      · exact .inr (.inr (Finset.mem_insert_of_mem hrecovered))
  · intro other hother
    rcases Finset.mem_insert.mp hother with rfl | hrecovered
    · exact (h.lost token other hcall).1
    · exact h.exited other hrecovered
  · exact hknown
  · exact hlost

/-- A step that moves the directory of a call away, to release it. -/
theorem retire (h : s.Guarded installers) (halive : s.alive (installers.process token) = true)
    (hcall : s.calls token = .retire) :
    ({ s with lockDirectory := none, retired := insert token s.retired }.goto token
      .remove).Guarded installers := by
  let s' := { s with lockDirectory := none, retired := insert token s.retired }.goto token .remove
  have hcalls : s'.calls = Function.update s.calls token .remove := rfl
  have hlock : s.lockDirectory = some token := by
    apply h.in_place halive
    · rw [hcall]
      trivial
    · rw [HasReleased, hcall]
      simp
  obtain ⟨hknown, hlost⟩ := h.reads hcalls rfl halive (fun _ => trivial) (fun _ hread => hread.elim)
    (by simp)
  constructor
  · rintro owner ⟨⟩
  · intro other hother
    by_cases hne : other = token
    · right
      left
      rw [hne, HasReleased, hcalls, Function.update_self]
      exact .inl rfl
    · rw [hcalls, Function.update_of_ne hne] at hother
      rw [hasReleased_of_ne hcalls hne]
      rcases h.placed other hother with hlock' | hgone
      · cases hlock.symm.trans hlock'
        exact absurd rfl hne
      · exact .inr hgone
  · exact h.exited
  · exact hknown
  · exact hlost

/-- A step of a call that has not acquired the lock and does not acquire it. -/
theorem waits {before : CallState Token} (h : s.Guarded installers)
    (halive : s.alive (installers.process token) = true) (hcall : s.calls token = before)
    (hbefore : ¬before.HasAcquired) (hstate : ¬state.HasAcquired)
    (hread : ∀ owner, state.HasRead owner → (s.calls owner).HasAcquired)
    (hlost : ∀ owner, state = .recover owner →
      s.alive (installers.process owner) = false ∧ ¬s.HasReleased owner) :
    (s.goto token state).Guarded installers := by
  subst hcall
  apply h.goto halive ⟨fun hhas => absurd hhas hbefore, fun hhas => absurd hhas hstate⟩ ?_ ?_ hread
    hlost
  · rintro (hcall | hcall) <;> rw [hcall] at hbefore <;> exact absurd trivial hbefore
  · rintro (rfl | rfl) <;> exact absurd trivial hstate

/-- A step to a place where nothing has been read. -/
theorem idles {before : CallState Token} (h : s.Guarded installers)
    (halive : s.alive (installers.process token) = true) (hcall : s.calls token = before)
    (hbefore : ¬before.HasAcquired) (hstate : ¬state.HasAcquired)
    (hread : ∀ owner, ¬state.HasRead owner) : (s.goto token state).Guarded installers := by
  apply h.waits halive hcall hbefore hstate
  · intro owner howner
    exact absurd howner (hread owner)
  · rintro owner rfl
    exact absurd rfl (hread owner)

/-- A step of the release function that leaves the lock directory where it is. -/
theorem releases {before : CallState Token} (h : s.Guarded installers)
    (halive : s.alive (installers.process token) = true) (hcall : s.calls token = before)
    (hbefore : before.HasAcquired) (hstate : state.HasAcquired)
    (hkept : before = .remove ∨ before = .released → state = .remove ∨ state = .released)
    (hreleased : state = .remove ∨ state = .released → s.lockDirectory ≠ some token) :
    (s.goto token state).Guarded installers := by
  subst hcall
  apply h.goto halive ⟨fun _ => hstate, fun _ => hbefore⟩ hkept hreleased
  · intro owner hread
    cases state <;> first | exact hread.elim | exact hstate.elim
  · rintro owner rfl
    exact hstate.elim

/-- The end of the release function. -/
theorem removes (h : s.Guarded installers) (halive : s.alive (installers.process token) = true)
    (hcall : s.calls token = .remove) : (s.goto token .released).Guarded installers := by
  refine h.releases halive hcall trivial trivial (by simp) ?_
  rintro - hlock
  exact (h.owned token hlock).2.1 (.inl hcall)

omit [DecidableEq Token] in
/-- The directories that were moved away on release are not looked at. -/
theorem clear (h : s.Guarded installers) (retired : Finset Token) :
    Guarded installers { s with retired } :=
  ⟨h.owned, h.placed, h.exited, h.known, h.lost⟩

section Advance

variable [DecidableEq Host]

theorem advance (h : s.Guarded installers) (halive : s.alive (installers.process token) = true)
    (hsettled : ∀ owner, s.calls token = .probe owner →
      s.cacheLockOwnerIsAlive installers token owner = false → ¬s.HasReleased owner)
    (hstep : s.advance installers token = some s') : s'.Guarded installers := by
  cases hcall : s.calls token with
  | uncalled =>
    simp only [CacheLock.advance, hcall, Option.some.injEq] at hstep
    subst hstep
    exact h.idles halive hcall id id fun _ => id
  | inspect =>
    simp only [CacheLock.advance, hcall] at hstep
    split_ifs at hstep <;> cases hstep <;> exact h.idles halive hcall id id fun _ => id
  | read =>
    simp only [CacheLock.advance, hcall] at hstep
    cases hlock : s.lockDirectory with
    | none =>
      simp only [hlock, Option.some.injEq] at hstep
      subst hstep
      exact h.idles halive hcall id id fun _ => id
    | some owner =>
      simp only [hlock, Option.some.injEq] at hstep
      subst hstep
      apply h.waits halive hcall id id
      · rintro read rfl
        exact (h.owned _ hlock).1
      · rintro read ⟨⟩
  | publish =>
    simp only [CacheLock.advance, hcall] at hstep
    cases hlock : s.lockDirectory with
    | none =>
      simp only [hlock, Option.some.injEq] at hstep
      subst hstep
      exact h.publish halive hlock
    | some owner =>
      simp only [hlock, Option.some.injEq] at hstep
      subst hstep
      exact h.idles halive hcall id id fun _ => id
  | reinspect owner =>
    simp only [CacheLock.advance, hcall] at hstep
    split_ifs at hstep
    · cases hstep
      exact h.idles halive hcall id id fun _ => id
    · cases hstep
      apply h.waits halive hcall id id
      · rintro read rfl
        exact h.known token owner (by rw [hcall]; rfl)
      · rintro read ⟨⟩
  | reread owner =>
    simp only [CacheLock.advance, hcall] at hstep
    split_ifs at hstep
    · cases hstep
      apply h.waits halive hcall id id
      · rintro read rfl
        exact h.known token owner (by rw [hcall]; rfl)
      · rintro read ⟨⟩
    · cases hstep
      exact h.idles halive hcall id id fun _ => id
  | probe owner =>
    simp only [CacheLock.advance, hcall] at hstep
    split_ifs at hstep with hprobe
    · cases hstep
      exact h.idles halive hcall id id fun _ => id
    · cases hstep
      have hdead : s.cacheLockOwnerIsAlive installers token owner = false := by simpa using hprobe
      apply h.waits halive hcall id id
      · rintro read rfl
        exact h.known token owner (by rw [hcall]; rfl)
      · rintro read ⟨⟩
        refine ⟨?_, hsettled owner hcall hdead⟩
        unfold cacheLockOwnerIsAlive at hdead
        split_ifs at hdead
        exact hdead
  | recover owner =>
    simp only [CacheLock.advance, hcall] at hstep
    split_ifs at hstep with hrefused
    · cases hstep
      exact h.idles halive hcall id id fun _ => id
    · cases hstep
      obtain ⟨hlock, hrecovered⟩ := not_or.mp hrefused
      have hplaced := h.placed owner (h.known token owner (by rw [hcall]; rfl))
      have hreleased := (h.lost token owner hcall).2
      exact h.recover halive hcall (by tauto)
  | delayed =>
    simp only [CacheLock.advance, hcall, Option.some.injEq] at hstep
    subst hstep
    exact h.idles halive hcall id id fun _ => id
  | held =>
    simp only [CacheLock.advance, hcall, Option.some.injEq] at hstep
    subst hstep
    exact h.releases halive hcall trivial trivial (by simp) (by simp)
  | releaseInspect =>
    simp only [CacheLock.advance, hcall] at hstep
    split_ifs at hstep with hfree
    · cases hstep
      exact h.releases halive hcall trivial trivial (by simp) (by simp [hfree])
    · cases hstep
      exact h.releases halive hcall trivial trivial (by simp) (by simp)
  | releaseRead =>
    simp only [CacheLock.advance, hcall] at hstep
    split_ifs at hstep with hlock
    · cases hstep
      exact h.releases halive hcall trivial trivial (by simp) (by simp)
    · cases hstep
      exact h.releases halive hcall trivial trivial (by simp) (fun _ => hlock)
  | retire =>
    simp only [CacheLock.advance, hcall] at hstep
    split_ifs at hstep
    · cases hstep
      exact h.releases halive hcall trivial trivial (by simp) (by simp)
    · cases hstep
      exact h.retire halive hcall
  | remove =>
    simp only [CacheLock.advance, hcall, Option.some.injEq] at hstep
    subst hstep
    exact (h.removes halive hcall).clear _
  | released =>
    simp only [CacheLock.advance, hcall] at hstep
    cases hstep
  | failed =>
    simp only [CacheLock.advance, hcall] at hstep
    cases hstep
  | releaseFailed =>
    simp only [CacheLock.advance, hcall] at hstep
    cases hstep

omit [DecidableEq Host] in
theorem abort (h : s.Guarded installers) (halive : s.alive (installers.process token) = true)
    (hstep : s.abort token = some s') : s'.Guarded installers := by
  unfold CacheLock.abort at hstep
  split at hstep <;> rename_i hcall <;> cases hstep
  iterate 8 exact h.idles halive hcall id id fun _ => id
  iterate 3 exact h.releases halive hcall trivial trivial (by simp) (by simp)
  exact h.removes halive hcall

end Advance

section Events

variable [DecidableEq Process]

omit [DecidableEq Token] in

/-- The end of a process. -/
theorem exit (h : s.Guarded installers) (process : Process) :
    Guarded installers { s with alive := Function.update s.alive process false } := by
  have hdead : ∀ owner, s.alive (installers.process owner) = false →
      Function.update s.alive process false (installers.process owner) = false := by
    intro owner howner
    by_cases hne : installers.process owner = process
    · rw [hne, Function.update_self]
    · rwa [Function.update_of_ne hne]
  refine ⟨h.owned, h.placed, fun owner howner => hdead owner (h.exited owner howner), h.known, ?_⟩
  intro token owner hcall
  exact ⟨hdead owner (h.lost token owner hcall).1, (h.lost token owner hcall).2⟩

variable [DecidableEq Host]

theorem next {event : LockEvent Token Process} (h : s.Guarded installers)
    (hsettled : s.Settled installers event) (hstep : s.next installers event = some s') :
    s'.Guarded installers := by
  cases event with
  | step token =>
    rw [CacheLock.next] at hstep
    split_ifs at hstep with halive
    exact h.advance halive hsettled hstep
  | throw token =>
    rw [CacheLock.next] at hstep
    split_ifs at hstep with halive
    exact h.abort halive hstep
  | exit process =>
    cases hstep
    exact h.exit process

end Events

end Guarded

variable [DecidableEq Token] [DecidableEq Process] [DecidableEq Host]

theorem SettledReachable.guarded (hs : s.SettledReachable installers) : s.Guarded installers :=
  Transition.Reachable.invariant hs (fun _ h => .start h) fun _ _ _ h hstep =>
    h.next hstep.1 hstep.2

/-- Three processes, each with one call. -/
def threeInstallers : Installers ℕ ℕ Unit where
  process token := token
  hostname _ := ()

/-- Call 2 reads the token of call 0, which releases the lock and exits; call 1
acquires the lock before call 2 probes call 0. -/
def releasedBetween : List (LockEvent ℕ ℕ) :=
  [.step 0, .step 0, .step 0, .step 2, .step 2, .step 2, .step 2, .step 2,
    .step 0, .step 0, .step 0, .step 0, .step 0, .exit 0, .step 1, .step 1, .step 1,
    .step 2, .step 2, .step 2, .step 2]

theorem releasedBetween_run :
    ∃ s, Transition.run (CacheLock.next threeInstallers) {} releasedBetween = some s ∧
      (s.calls 1 = .held ∧ s.alive 1 = true) ∧ s.calls 2 = .held ∧ s.alive 2 = true :=
  ⟨_, rfl, by decide, by decide⟩

theorem initial_empty : Initial ({} : CacheLock ℕ ℕ) :=
  ⟨rfl, rfl, rfl, fun _ => rfl⟩

omit [DecidableEq Process] in
theorem settled_step_iff : s.Settled installers (.step token) ↔
    (s.calls token).probed.all (fun owner =>
      s.cacheLockOwnerIsAlive installers token owner || !decide (s.HasReleased owner)) = true := by
  cases hcall : s.calls token with
  | probe owner =>
    simp only [Settled, hcall, CallState.probe.injEq, forall_eq', CallState.probed, Option.all_some,
      Bool.or_eq_true, Bool.not_eq_true', decide_eq_false_iff_not]
    rcases s.cacheLockOwnerIsAlive installers token owner <;> simp
  | _ => simp [Settled, hcall, CallState.probed]

instance (event : LockEvent Token Process) : Decidable (s.Settled installers event) :=
  match event with
  | .step _ => decidable_of_iff' _ settled_step_iff
  | .throw _ => isTrue trivial
  | .exit _ => isTrue trivial

/-- One event, if it is settled. -/
def settledNext (installers : Installers Token Process Host) (s : CacheLock Token Process)
    (event : LockEvent Token Process) : Option (CacheLock Token Process) :=
  if s.Settled installers event then s.next installers event else none

theorem SettledReachable.run (hs : s.SettledReachable installers)
    {events : List (LockEvent Token Process)}
    (h : Transition.run (settledNext installers) s events = some s') :
    s'.SettledReachable installers := by
  refine Transition.Reachable.run ?_ hs h
  intro s event s' hstep
  exact Option.ite_none_right_eq_some.mp hstep

/-- Call 0 acquires the lock and its process crashes; call 1 reads its token, finds it exited,
moves its directory away and acquires the lock. -/
def recoveredOwner : List (LockEvent ℕ ℕ) :=
  [.step 0, .step 0, .step 0, .exit 0, .step 1, .step 1, .step 1, .step 1, .step 1, .step 1,
    .step 1, .step 1, .step 1]

theorem recoveredOwner_run :
    ∃ s : CacheLock ℕ ℕ, s.SettledReachable threeInstallers ∧ s.Holds threeInstallers 1 ∧
      s.recovered = {0} := by
  have hrun : ∃ s, Transition.run (settledNext threeInstallers) {} recoveredOwner = some s ∧
      (s.calls 1 = .held ∧ s.alive 1 = true) ∧ s.recovered = {0} :=
    ⟨_, rfl, by decide, by decide⟩
  obtain ⟨s, hrun, hholds, hrecovered⟩ := hrun
  exact ⟨s, .run (.start initial_empty) hrun, hholds, hrecovered⟩

end CacheLock

open CacheLock

/-- The lock of a live owner is recovered, and two live processes hold it. -/
theorem cacheLock_shared : ∃ s : CacheLock ℕ ℕ, s.Reachable threeInstallers ∧
    s.Holds threeInstallers 1 ∧ s.Holds threeInstallers 2 := by
  obtain ⟨s, hrun, hfirst, hsecond⟩ := releasedBetween_run
  exact ⟨s, Transition.Reachable.run (fun _ _ _ h => h) (.start initial_empty) hrun, hfirst, hsecond⟩

variable {Token Process Host : Type} [DecidableEq Token] [DecidableEq Process] [DecidableEq Host]

/-- As long as no probe finds an owner exited that has released the lock, no two live
calls hold the lock, and only the lock directory of an exited owner is moved away. -/
theorem cacheLock_exclusive {installers : Installers Token Process Host}
    {s : CacheLock Token Process} (hs : s.SettledReachable installers) :
    (∀ token other, s.Holds installers token → s.Holds installers other → token = other) ∧
    ∀ token owner, s.Recovers installers token owner →
      s.alive (installers.process owner) = false := by
  have h := hs.guarded
  have hplace : ∀ token, s.Holds installers token → s.lockDirectory = some token := by
    rintro token ⟨hheld, halive⟩
    apply h.in_place halive
    · rw [hheld]
      trivial
    · rw [HasReleased, hheld]
      simp
  constructor
  · intro token other htoken hother
    have hsame := (hplace token htoken).symm.trans (hplace other hother)
    exact Option.some.inj hsame
  · rintro token owner ⟨-, hlock, read, hcall, hrecovered⟩
    have hread := h.known token read (by rw [hcall]; rfl)
    obtain ⟨hdead, hreleased⟩ := h.lost token read hcall
    rcases h.placed read hread with hlock' | hreleased' | hrecovered'
    · cases hlock.symm.trans hlock'
      exact hdead
    · exact absurd hreleased' hreleased
    · exact absurd hrecovered' hrecovered

/-- Call 1 recovers the lock of call 0, and nobody else holds it. -/
theorem cacheLock_exclusive_recovered :
    ∃ s : CacheLock ℕ ℕ, s.recovered = {0} ∧ s.Holds threeInstallers 1 ∧
      ∀ other, s.Holds threeInstallers other → 1 = other := by
  obtain ⟨s, hs, hholds, hrecovered⟩ := recoveredOwner_run
  exact ⟨s, hrecovered, hholds, fun other => (cacheLock_exclusive hs).1 1 other hholds⟩

end Eiows
