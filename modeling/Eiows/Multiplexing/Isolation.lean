import Eiows.Multiplexing.Callbacks

/-!
# Isolation of the owned connections

The bookkeeping of the multiplexers counts the owned connections of each context,
and restores the callbacks of the host with the last of them. Whether a callback of
the host stays away from the owned connections depends on what the host installed
since; this is decided exactly.
-/

namespace Eiows

variable {Ctx Conn H : Type}

/-- The bookkeeping of one context with `n` owners, given what the host installed
last, what it had installed at the first owner, and whether it installed since. -/
inductive Tracked (s : TLSCallbacks Ctx Conn H) (c : Ctx)
    (installed captured : CallbackKind → Option H) (reinstalled : CallbackKind → Bool) : ℕ → Prop
  | unowned (entry : s.tlsContexts c = none)
      (registered : ∀ kind, s.callbacks c kind = (installed kind).map .host) :
      Tracked s c installed captured reinstalled 0
  | owned {n : ℕ} {e : TLSContextCallbacks H} (entry : s.tlsContexts c = some e)
      (owners : e.owners = n + 1) (saved : ∀ kind, e.saved kind = (captured kind).map .host)
      (replaced : ∀ kind, reinstalled kind = true →
        s.callbacks c kind = (installed kind).map .host)
      (multiplexed : ∀ kind, reinstalled kind = false →
        s.callbacks c kind = some .multiplexer ∧ captured kind = installed kind) :
      Tracked s c installed captured reinstalled (n + 1)

namespace Tracked

variable {s s' : TLSCallbacks Ctx Conn H} {c : Ctx} {context : Option Ctx}
  {installed captured : CallbackKind → Option H} {reinstalled : CallbackKind → Bool} {n : ℕ}

theorem congr (h : Tracked s c installed captured reinstalled n)
    (hentry : s'.tlsContexts c = s.tlsContexts c) (hcallbacks : s'.callbacks c = s.callbacks c) :
    Tracked s' c installed captured reinstalled n := by
  cases h with
  | unowned entry registered =>
    exact .unowned (hentry.trans entry) (by rwa [hcallbacks])
  | owned entry owners saved replaced multiplexed =>
    exact .owned (hentry.trans entry) owners saved (by rwa [hcallbacks]) (by rwa [hcallbacks])

/-- Without an owner the history of a context does not matter. -/
theorem forget (h : Tracked s c installed captured reinstalled 0)
    (captured' : CallbackKind → Option H) (reinstalled' : CallbackKind → Bool) :
    Tracked s c installed captured' reinstalled' 0 := by
  cases h with
  | unowned entry registered => exact .unowned entry registered

/-- The history that a context has after the next owner of any context. -/
theorem observed (h : Tracked s c installed captured reinstalled n) :
    Tracked s c installed (fun kind => if n = 0 then installed kind else captured kind)
      (fun kind => n ≠ 0 && reinstalled kind) n := by
  cases n with
  | zero => exact h.forget _ _
  | succ n => simpa using h

/-- The host installs a callback of its own. -/
theorem install (h : Tracked s c installed captured reinstalled n) (kind : CallbackKind)
    (callback : Option H) (hentry : s'.tlsContexts c = s.tlsContexts c)
    (hcallbacks : s'.callbacks c = Function.update (s.callbacks c) kind (callback.map .host)) :
    Tracked s' c (Function.update installed kind callback) captured
      (Function.update reinstalled kind true) n := by
  cases h with
  | unowned entry registered =>
    refine .unowned (hentry.trans entry) ?_
    intro other
    rw [hcallbacks]
    by_cases hother : other = kind
    · rw [hother, Function.update_self, Function.update_self]
    · rw [Function.update_of_ne hother, Function.update_of_ne hother, registered]
  | owned entry owners saved replaced multiplexed =>
    refine .owned (hentry.trans entry) owners saved ?_ ?_ <;> intro other hreinstalled
    · rw [hcallbacks]
      by_cases hother : other = kind
      · rw [hother, Function.update_self, Function.update_self]
      · rw [Function.update_of_ne hother] at hreinstalled
        rw [Function.update_of_ne hother, Function.update_of_ne hother, replaced other hreinstalled]
    · by_cases hother : other = kind
      · rw [hother, Function.update_self] at hreinstalled
        cases hreinstalled
      · rw [Function.update_of_ne hother] at hreinstalled
        rw [hcallbacks, Function.update_of_ne hother, Function.update_of_ne hother]
        exact multiplexed other hreinstalled

variable [DecidableEq Ctx]

theorem retain_other (h : Tracked s c installed captured reinstalled n) (hc : context ≠ some c) :
    Tracked (s.retainTLSContext context) c installed captured reinstalled n := by
  cases context with
  | none => exact h
  | some d =>
    have hcd : c ≠ d := by
      rintro rfl
      exact hc rfl
    rw [TLSCallbacks.retainTLSContext]
    split_ifs
    · exact h.congr (Function.update_of_ne hcd ..) rfl
    · exact h.congr (Function.update_of_ne hcd ..) (Function.update_of_ne hcd ..)

theorem retain_self (h : Tracked s c installed captured reinstalled n) :
    Tracked (s.retainTLSContext (some c)) c installed
      (fun kind => if n = 0 then installed kind else captured kind)
      (fun kind => n ≠ 0 && reinstalled kind) (n + 1) := by
  rw [TLSCallbacks.retainTLSContext]
  cases h with
  | unowned entry registered =>
    rw [entry, Option.getD_none, if_neg (by simp)]
    refine .owned (Function.update_self ..) rfl registered (by simp) ?_
    intro kind _
    refine ⟨?_, rfl⟩
    change Function.update s.callbacks c (fun _ => some .multiplexer) c kind = _
    rw [Function.update_self]
  | @owned n e entry owners saved replaced multiplexed =>
    rw [entry, Option.getD_some, if_pos (by omega)]
    refine .owned (Function.update_self ..) (by rw [owners]) ?_ ?_ ?_
    · simpa using saved
    · simpa using replaced
    · simpa using multiplexed

variable [DecidableEq H]

theorem release_other (h : Tracked s c installed captured reinstalled n) (hc : context ≠ some c) :
    Tracked (s.releaseTLSContext context) c installed captured reinstalled n := by
  cases context with
  | none => exact h
  | some d =>
    have hcd : c ≠ d := by
      rintro rfl
      exact hc rfl
    rw [TLSCallbacks.releaseTLSContext]
    cases s.tlsContexts d with
    | none => exact h
    | some e =>
      dsimp only
      split_ifs
      · exact h.congr (Function.update_of_ne hcd ..) rfl
      · exact h.congr (Function.update_of_ne hcd ..) (Function.update_of_ne hcd ..)

theorem release_self (h : Tracked s c installed captured reinstalled (n + 1)) :
    Tracked (s.releaseTLSContext (some c)) c installed captured reinstalled n := by
  rw [TLSCallbacks.releaseTLSContext]
  cases h with
  | @owned n e entry owners saved replaced multiplexed =>
    rw [entry]
    dsimp only
    cases n with
    | zero =>
      rw [if_neg (by omega)]
      refine .unowned (Function.update_self ..) ?_
      intro kind
      have hself := congrFun (Function.update_self c (fun kind =>
        if s.callbacks c kind = some .multiplexer then e.saved kind else s.callbacks c kind)
        s.callbacks) kind
      refine hself.trans ?_
      cases hreinstalled : reinstalled kind with
      | true =>
        rw [replaced kind hreinstalled, if_neg]
        cases installed kind <;> simp
      | false =>
        obtain ⟨hmultiplexer, hcaptured⟩ := multiplexed kind hreinstalled
        rw [if_pos hmultiplexer, saved, hcaptured]
    | succ n =>
      rw [if_pos (by omega)]
      exact .owned (Function.update_self ..) (by rw [owners]; rfl) saved replaced multiplexed

section Connections

variable [DecidableEq Conn] (ssl : Conn) (initialContext : Option Ctx)

omit [DecidableEq H] in
/-- A connection that is taken over is counted once for each of its contexts. -/
theorem retainTLSCallbacks (h : Tracked s c installed captured reinstalled n) :
    Tracked (s.retainTLSCallbacks ssl initialContext) c installed
      (fun kind => if n = 0 then installed kind else captured kind)
      (fun kind => n ≠ 0 && reinstalled kind)
      (if initialContext = some c ∨ s.context ssl = c then n + 1 else n) := by
  suffices hcontexts : Tracked
      (if some (s.context ssl) ≠ initialContext then
        (s.retainTLSContext initialContext).retainTLSContext (some (s.context ssl))
        else s.retainTLSContext initialContext) c installed
      (fun kind => if n = 0 then installed kind else captured kind)
      (fun kind => n ≠ 0 && reinstalled kind)
      (if initialContext = some c ∨ s.context ssl = c then n + 1 else n) from
    hcontexts.congr rfl rfl
  by_cases hinitial : initialContext = some c
  · have hfirst := h.retain_self
    rw [if_pos (Or.inl hinitial : initialContext = some c ∨ s.context ssl = c), hinitial]
    by_cases hcurrent : some (s.context ssl) ≠ some c
    · rw [if_pos hcurrent]
      exact hfirst.retain_other hcurrent
    · rw [if_neg hcurrent]
      exact hfirst
  have hfirst := h.retain_other hinitial
  by_cases hcontext : s.context ssl = c
  · have hcurrent : some c ≠ initialContext := Ne.symm hinitial
    rw [if_pos (Or.inr hcontext : initialContext = some c ∨ s.context ssl = c), hcontext,
      if_pos hcurrent]
    exact hfirst.retain_self
  · have hother : some (s.context ssl) ≠ some c := by simpa using hcontext
    rw [if_neg (by tauto : ¬(initialContext = some c ∨ s.context ssl = c))]
    by_cases hcurrent : some (s.context ssl) ≠ initialContext
    · rw [if_pos hcurrent]
      exact (hfirst.retain_other hother).observed
    · rw [if_neg hcurrent]
      exact hfirst.observed

/-- A connection that is given back is no longer counted. -/
theorem releaseTLSCallbacks (h : Tracked s c installed captured reinstalled
      (if initialContext = some c ∨ s.context ssl = c then n + 1 else n)) :
    Tracked (s.releaseTLSCallbacks ssl initialContext) c installed captured reinstalled n := by
  let erased := { s with ownedTLSConnections := s.ownedTLSConnections.erase ssl }
  have herased : Tracked erased c installed captured reinstalled
      (if initialContext = some c ∨ s.context ssl = c then n + 1 else n) := h.congr rfl rfl
  suffices hcontexts : Tracked
      ((if some (s.context ssl) ≠ initialContext then
        erased.releaseTLSContext (some (s.context ssl))
        else erased).releaseTLSContext initialContext) c installed captured reinstalled n from
    hcontexts
  by_cases hinitial : initialContext = some c
  · rw [if_pos (Or.inl hinitial : initialContext = some c ∨ s.context ssl = c)] at herased
    rw [hinitial]
    split_ifs with hcurrent
    · exact (herased.release_other hcurrent).release_self
    · exact herased.release_self
  by_cases hcontext : s.context ssl = c
  · have hcurrent : some c ≠ initialContext := Ne.symm hinitial
    rw [if_pos (Or.inr hcontext : initialContext = some c ∨ s.context ssl = c)] at herased
    rw [hcontext, if_pos hcurrent]
    exact herased.release_self.release_other hinitial
  · have hother : some (s.context ssl) ≠ some c := by simpa using hcontext
    rw [if_neg (by tauto : ¬(initialContext = some c ∨ s.context ssl = c))] at herased
    split_ifs with hcurrent
    · exact (herased.release_other hother).release_other hinitial
    · exact herased.release_other hinitial

end Connections

end Tracked

namespace TLSHistory

variable [DecidableEq Ctx]

/-- The invariant: the bookkeeping of every context counts its owned connections. -/
def Consistent (w : TLSHistory Ctx Conn H) : Prop :=
  ∀ c, Tracked w.toTLSCallbacks c (w.installed c) (w.captured c) (w.reinstalled c) (w.holders c)

variable {w w' : TLSHistory Ctx Conn H} {c : Ctx} {ssl : Conn} {initialContext : Option Ctx}

theorem Initial.consistent (h : Initial w) : Consistent w := by
  intro c
  have hholders : w.holders c = 0 := by
    rw [holders, h.unowned, Finset.filter_empty, Finset.card_empty]
  rw [hholders]
  exact .unowned (h.untracked c) (h.callbacks c)

/-- An owned connection is counted for each of its contexts. -/
theorem holders_pos (hssl : ssl ∈ w.ownedTLSConnections) (hc : w.Holds c ssl) : w.holders c ≠ 0 := by
  have hmem : ssl ∈ w.ownedTLSConnections.filter (w.Holds c) := Finset.mem_filter.mpr ⟨hssl, hc⟩
  exact Finset.card_ne_zero_of_mem hmem

variable [DecidableEq Conn]

theorem connect_holders {connection : TLSConnection Ctx} (hssl : ssl ∉ w.ownedTLSConnections) :
    (w.connect ssl connection).holders c = w.holders c := by
  apply congrArg Finset.card
  apply Finset.filter_congr
  intro other hother
  have hne : other ≠ ssl := by
    rintro rfl
    exact hssl hother
  simp [Holds, connect, TLSCallbacks.context, Function.update_of_ne hne]

theorem retain_holders (hssl : ssl ∉ w.ownedTLSConnections) :
    (w.retain ssl initialContext).holders c =
      if initialContext = some c ∨ w.context ssl = c then w.holders c + 1 else w.holders c := by
  have hself : (w.retain ssl initialContext).Holds c ssl ↔
      initialContext = some c ∨ w.context ssl = c := by
    simp [Holds, retain]
  have hsame : w.ownedTLSConnections.filter ((w.retain ssl initialContext).Holds c) =
      w.ownedTLSConnections.filter (w.Holds c) := by
    apply Finset.filter_congr
    intro other hother
    have hne : other ≠ ssl := by
      rintro rfl
      exact hssl hother
    simp [Holds, retain, Function.update_of_ne hne]
  have howned : (w.retain ssl initialContext).ownedTLSConnections =
      insert ssl w.ownedTLSConnections := TLSCallbacks.retainTLSCallbacks_ownedTLSConnections ..
  rw [holders, howned, Finset.filter_insert, hsame]
  by_cases h : initialContext = some c ∨ w.context ssl = c
  · rw [if_pos (hself.mpr h), if_pos h, Finset.card_insert_of_notMem, holders]
    intro hmem
    exact hssl (Finset.mem_filter.mp hmem).1
  · rw [if_neg (mt hself.mp h), if_neg h, holders]

variable [DecidableEq H]

theorem release_holders (hssl : ssl ∈ w.ownedTLSConnections) :
    w.holders c = if w.Holds c ssl then (w.release ssl).holders c + 1
      else (w.release ssl).holders c := by
  have hsame : (w.release ssl).ownedTLSConnections.filter ((w.release ssl).Holds c) =
      (w.ownedTLSConnections.erase ssl).filter (w.Holds c) := by
    rw [release, TLSCallbacks.releaseTLSCallbacks_ownedTLSConnections]
    apply Finset.filter_congr
    intro other _
    simp [Holds]
  rw [holders, holders, hsame]
  conv_lhs => rw [← Finset.insert_erase hssl, Finset.filter_insert]
  by_cases h : w.Holds c ssl
  · rw [if_pos h, if_pos h, Finset.card_insert_of_notMem]
    intro hmem
    exact Finset.notMem_erase ssl _ (Finset.mem_filter.mp hmem).1
  · rw [if_neg h, if_neg h]

theorem Consistent.step {event : Event Ctx Conn H} (h : Consistent w) (hstep : Step w event w') :
    Consistent w' := by
  cases hstep with
  | retain hssl =>
    intro c
    rw [retain_holders hssl]
    exact (h c).retainTLSCallbacks _ _
  | @release ssl hssl =>
    intro c
    have hc := h c
    rw [release_holders hssl] at hc
    exact hc.releaseTLSCallbacks ssl (w.initialContext ssl)
  | @install d kind callback =>
    intro c
    have hc := h c
    by_cases hcd : c = d
    · subst hcd
      have hinstalled : Tracked (w.install c kind callback).toTLSCallbacks c _ _ _ _ :=
        hc.install kind callback rfl (Function.update_self ..)
      have hholders : (w.install c kind callback).holders c = w.holders c := rfl
      rw [hholders]
      simpa only [TLSHistory.install, Function.update_self] using hinstalled
    · have hsame : Tracked (w.install d kind callback).toTLSCallbacks c (w.installed c)
          (w.captured c) (w.reinstalled c) (w.holders c) :=
        hc.congr rfl (Function.update_of_ne hcd ..)
      have hholders : (w.install d kind callback).holders c = w.holders c := rfl
      rw [hholders]
      simpa only [TLSHistory.install, Function.update_of_ne hcd] using hsame
  | @connect ssl connection hssl =>
    intro c
    rw [connect_holders hssl]
    exact (h c).congr rfl rfl

theorem Reachable.consistent (hw : Reachable w) : Consistent w :=
  Transition.Reachable.invariant hw (fun _ h => h.consistent) fun _ _ _ h hstep => h.step hstep

/-- A callback reaches whom it should: no callback of the host sees an owned
connection, and every other connection gets the callback that the host installed last. -/
def Isolates (w : TLSHistory Ctx Conn H) (c : Ctx) (kind : CallbackKind) (ssl : Conn) : Prop :=
  if ssl ∈ w.ownedTLSConnections then w.invoke c kind ssl = none
  else w.invoke c kind ssl = w.installed c kind

/-- What the host had installed at the first owner of the current context of a connection. -/
def target (w : TLSHistory Ctx Conn H) (kind : CallbackKind) (ssl : Conn) : Option H :=
  if w.holders (w.context ssl) = 0 then none else w.captured (w.context ssl) kind

/-- The host has not come between: for an owned connection it installed no callback
since the first owner of the context; for another one, the context has no owner, or
the host installed a callback since, or the current context of the connection
stands for the same callback of the host. -/
def Undisturbed (w : TLSHistory Ctx Conn H) (c : Ctx) (kind : CallbackKind) (ssl : Conn) : Prop :=
  if ssl ∈ w.ownedTLSConnections then w.reinstalled c kind = false ∨ w.installed c kind = none
  else w.holders c = 0 ∨ w.reinstalled c kind = true ∨ w.target kind ssl = w.installed c kind

omit [DecidableEq Ctx] [DecidableEq H] in
theorem multiplexer_eq (kind : CallbackKind) (s : TLSCallbacks Ctx Conn H) :
    TLSCallbacks.multiplexer kind ssl s = s.multiplex kind ssl := by
  cases kind <;> rfl

omit [DecidableEq Ctx] [DecidableEq H] in
theorem invoke_host {kind : CallbackKind} {callback : Option H}
    (h : w.callbacks c kind = callback.map .host) : w.invoke c kind ssl = callback := by
  rw [TLSCallbacks.invoke, h]
  cases callback <;> rfl

omit [DecidableEq Ctx] [DecidableEq H] in
theorem invoke_multiplexer {kind : CallbackKind} (h : w.callbacks c kind = some .multiplexer) :
    w.invoke c kind ssl = w.multiplex kind ssl := by
  rw [TLSCallbacks.invoke, h]
  exact multiplexer_eq kind _

omit [DecidableEq H] in
theorem Consistent.multiplex (h : Consistent w) (kind : CallbackKind)
    (hssl : ssl ∉ w.ownedTLSConnections) : w.multiplex kind ssl = w.target kind ssl := by
  have hcontext := h (w.context ssl)
  rw [TLSCallbacks.multiplex, if_neg hssl, target]
  cases hholders : w.holders (w.context ssl) with
  | zero =>
    rw [hholders] at hcontext
    cases hcontext with
    | unowned entry registered => rw [entry, if_pos rfl, Option.bind_none]
  | succ n =>
    rw [hholders] at hcontext
    cases hcontext with
    | owned entry owners saved replaced multiplexed =>
      rw [entry, if_neg (by omega), Option.bind_some, saved]
      cases w.captured (w.context ssl) kind <;> rfl

omit [DecidableEq H] in
theorem Consistent.isolates_iff (h : Consistent w) (kind : CallbackKind)
    (hholds : ssl ∈ w.ownedTLSConnections → w.Holds c ssl) :
    w.Isolates c kind ssl ↔ w.Undisturbed c kind ssl := by
  have hc := h c
  rw [Isolates, Undisturbed]
  by_cases hssl : ssl ∈ w.ownedTLSConnections
  · rw [if_pos hssl, if_pos hssl]
    obtain ⟨n, hn⟩ := Nat.exists_eq_succ_of_ne_zero (holders_pos hssl (hholds hssl))
    rw [hn] at hc
    cases hc with
    | owned entry owners saved replaced multiplexed =>
      cases hreinstalled : w.reinstalled c kind with
      | true =>
        rw [invoke_host (replaced kind hreinstalled)]
        simp
      | false =>
        rw [invoke_multiplexer (multiplexed kind hreinstalled).1, TLSCallbacks.multiplex,
          if_pos hssl]
        simp
  · rw [if_neg hssl, if_neg hssl]
    cases hholders : w.holders c with
    | zero =>
      rw [hholders] at hc
      cases hc with
      | unowned entry registered =>
        rw [invoke_host (registered kind)]
        simp
    | succ n =>
      rw [hholders] at hc
      cases hc with
      | owned entry owners saved replaced multiplexed =>
        cases hreinstalled : w.reinstalled c kind with
        | true =>
          rw [invoke_host (replaced kind hreinstalled)]
          simp
        | false =>
          rw [invoke_multiplexer (multiplexed kind hreinstalled).1, h.multiplex kind hssl]
          simp

omit [DecidableEq Conn] [DecidableEq H] in
/-- A multiplexer is never its own target. -/
theorem Consistent.saved_ne (h : Consistent w) {entry : TLSContextCallbacks H}
    (hentry : w.tlsContexts c = some entry) (kind : CallbackKind) :
    entry.saved kind ≠ some .multiplexer := by
  have hc := h c
  cases hholders : w.holders c with
  | zero =>
    rw [hholders] at hc
    cases hc with
    | unowned none_entry registered => cases none_entry.symm.trans hentry
  | succ n =>
    rw [hholders] at hc
    cases hc with
    | owned some_entry owners saved replaced multiplexed =>
      cases some_entry.symm.trans hentry
      rw [saved]
      cases w.captured c kind <;> simp

omit [DecidableEq Conn] [DecidableEq H] in
/-- Without an owner a context has no entry, and the callbacks of the host. -/
theorem Consistent.restored (h : Consistent w) (hc : w.holders c = 0) :
    w.tlsContexts c = none ∧ ∀ kind, w.callbacks c kind = (w.installed c kind).map .host := by
  have htracked := h c
  rw [hc] at htracked
  cases htracked with
  | unowned entry registered => exact ⟨entry, registered⟩

/-- A host with one callback installed everywhere and two contexts: connection `true`
was given context `true` by its server name. -/
def hostInstalled : TLSHistory Bool Bool ℕ where
  tlsContexts _ := none
  ownedTLSConnections := ∅
  callbacks _ _ := some (.host 0)
  connections ssl := { context := ssl }
  initialContext _ := none
  installed _ _ := some 0
  captured _ _ := none
  reinstalled _ _ := false

theorem hostInstalled_reachable : Reachable hostInstalled :=
  .start ⟨rfl, fun _ => rfl, fun _ _ => rfl⟩

theorem hostInstalled_retain : Reachable (hostInstalled.retain false (some false)) :=
  .next hostInstalled_reachable (.retain (by decide))

end TLSHistory

variable [DecidableEq Ctx] [DecidableEq Conn] [DecidableEq H]

open TLSHistory

/-- The host's callback sees an owned connection when the host installs it again; and a
connection that is not owned loses it when its server name selected another context. -/
theorem multiplexing_disturbed :
    (∃ w : TLSHistory Bool Bool ℕ, w.Reachable ∧ ∃ c kind ssl h,
      ssl ∈ w.ownedTLSConnections ∧ w.Holds c ssl ∧ w.invoke c kind ssl = some h) ∧
    ∃ w : TLSHistory Bool Bool ℕ, w.Reachable ∧ ∃ c kind ssl h,
      ssl ∉ w.ownedTLSConnections ∧ w.installed c kind = some h ∧ w.invoke c kind ssl = none := by
  constructor
  · refine ⟨(hostInstalled.retain false (some false)).install false .newSession (some 1),
      .next hostInstalled_retain .install, false, .newSession, false, 1, ?_, ?_, ?_⟩ <;> decide
  · refine ⟨hostInstalled.retain false (some false), hostInstalled_retain, false, .newSession, true,
      0, ?_, ?_, ?_⟩ <;> decide

/-- In every state, each invocation isolates the owned connections exactly when the
host has not come between; a multiplexer is never saved as its own target; and with
its last owner a context gets the callbacks back that the host installed last. -/
theorem multiplexing_isolates_iff {w : TLSHistory Ctx Conn H} (hw : w.Reachable) :
    (∀ c kind ssl, (ssl ∈ w.ownedTLSConnections → w.Holds c ssl) →
      (w.Isolates c kind ssl ↔ w.Undisturbed c kind ssl)) ∧
    (∀ c entry kind, w.tlsContexts c = some entry → entry.saved kind ≠ some .multiplexer) ∧
    ∀ c, (∀ ssl ∈ w.ownedTLSConnections, ¬w.Holds c ssl) →
      w.tlsContexts c = none ∧ ∀ kind, w.callbacks c kind = (w.installed c kind).map .host := by
  have h := hw.consistent
  refine ⟨?_, ?_, ?_⟩
  · intro c kind ssl hholds
    exact h.isolates_iff kind hholds
  · intro c entry kind hentry
    exact h.saved_ne hentry kind
  · intro c hnone
    apply h.restored
    rw [holders, Finset.card_eq_zero, Finset.filter_eq_empty_iff]
    exact hnone

theorem multiplexing_isolates_iff_retained :
    (hostInstalled.retain false (some false)).Isolates false .newSession false ↔
      (hostInstalled.retain false (some false)).Undisturbed false .newSession false :=
  (multiplexing_isolates_iff hostInstalled_retain).1 false .newSession false fun _ => by decide

end Eiows
